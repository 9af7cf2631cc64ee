import RealMode.Proofs.Cpu.Address
import RealMode.Proofs.Cpu.Footprint
import RealMode.Registers.Lemmas

/-!
The operand of a ModRM byte is decoded once. An instruction consumes its encoding and no more, goes
to its operand at the address that the operand has when the instruction begins, and what it writes
there is what the same encoding reads again.
-/

namespace RealMode

open MemoryBus (memory)

/-- The registers on which the place of the operand, or its value, depends. -/
def ModRM.operandRegisters (m : ModRM) (w : Width) : List Reg16 :=
  if m.isRegister then [w.holder m.rm] else m.registers

namespace Cpu

variable {β : Type} [Bus β] [MemoryBus β]

/-- A write to an operand shows nowhere else. -/
structure StoresOnly (w : Width) (l : Location) (c d : Cpu β) : Prop where
  rest : d = { c with regs := d.regs, bus := d.bus }
  memory : Memory.AgreeOutside (l.bytes w) (memory c.bus) (memory d.bus)
  registers : ∀ j, l ≠ .reg j → d.regs.read w j = c.regs.read w j
  words : ∀ r, (∀ j, l = .reg j → r ≠ w.holder j) → d.regs.get r = c.regs.get r
  segments : ∀ r, d.regs.seg r = c.regs.seg r
  ip : d.regs.ip = c.regs.ip
  flags : d.regs.flags = c.regs.flags

theorem storesOnly_store (c : Cpu β) (w : Width) (l : Location) (value : UInt16) :
    StoresOnly w l c (c.store w l value) := by
  cases l with
  | reg i =>
    obtain ⟨ip, flags⟩ := c.regs.ip_flags_write w i value
    refine ⟨rfl, .refl _ _, ?_, ?_, c.regs.seg_write w i value, ip, flags⟩
    · intro j other
      exact c.regs.read_write_of_ne w i value fun same => other (congrArg Location.reg same.symm)
    · intro r other
      exact c.regs.get_write w i value r (other i rfl)
  | mem address =>
    refine ⟨rfl, ?_, fun _ _ => rfl, fun _ _ => rfl, fun _ => rfl, rfl, rfl⟩
    intro byte outside
    exact c.get_storeMem value outside

theorem load_store (c : Cpu β) {w : Width} {l : Location} (value : UInt16)
    (ram : ∀ byte ∈ l.bytes w, isRam byte) : (c.store w l value).load w l = w.trim value := by
  cases l with
  | reg i => exact c.regs.read_write w i value
  | mem address =>
    cases w with
    | byte =>
      have low := isRam_wrapAddress.1 (ram _ List.mem_cons_self)
      change (Bus.readByte (Bus.writeByte c.bus address (lowByte value)) address).toUInt16 = _
      rw [MemoryBus.readByte, MemoryBus.writeByte, Memory.get_store, if_pos ⟨rfl, low⟩,
        Width.toUInt16_lowByte]
    | word =>
      have low := isRam_wrapAddress.1 (ram _ (mem_wordBytes.2 (.inl rfl)))
      have high := isRam_wrapAddress.1 (ram _ (mem_wordBytes.2 (.inr rfl)))
      change Bus.readWord (Bus.writeWord c.bus address value) address = _
      rw [MemoryBus.readWord, MemoryBus.writeWord, Memory.readWord_writeWord_self _ _ low high,
        Width.trim_word]

/-- `e` is about to decode the operand of `c` again, when `d` has written to it. -/
structure Revisits (w : Width) (c d e : Cpu β) : Prop where
  override : e.prefixes.segment = c.prefixes.segment
  segments : ∀ r, e.regs.seg r = c.regs.seg r
  ip : e.regs.ip = c.regs.ip
  registers : ∀ r ∈ c.modRM.operandRegisters w, e.regs.get r = d.regs.get r
  memory : memory e.bus = memory d.bus

/-- To go back to the instruction after the write is one way to decode its operand again. -/
theorem revisits_setIp (c : Cpu β) (w : Width) (value : UInt16) :
    Revisits w c (c.fetched.store w (c.locate c.rmOperand) value)
      ((c.fetched.store w (c.locate c.rmOperand) value).setIp c.regs.ip) := by
  have stores := c.fetched.storesOnly_store w (c.locate c.rmOperand) value
  refine ⟨?_, stores.segments, rfl, ?_, rfl⟩
  · exact congrArg (·.prefixes.segment) stores.rest
  · intro r _
    cases r <;> rfl

variable {c e : Cpu β} {w : Width} {value : UInt16}

/-- What has been written to an operand is what its encoding reads again. -/
theorem rmValue_of_revisits (ram : ∀ byte ∈ (c.locate c.rmOperand).bytes w, isRam byte)
    (apart : ∀ i < Opcode.immediateAt c.modRM,
      wrapAddress (c.regs.codeAddress + i.toUInt32) ∉ (c.locate c.rmOperand).bytes w)
    (revisits : Revisits w c (c.fetched.store w (c.locate c.rmOperand) value) e) :
    e.rmOperand = c.rmOperand ∧ e.rmValue w = w.trim value := by
  have stores := c.fetched.storesOnly_store w (c.locate c.rmOperand) value
  have start : e.regs.codeAddress = c.regs.codeAddress := by
    rw [Registers.codeAddress, Registers.codeAddress, revisits.ip]
    exact congrArg (physical · c.regs.ip) (revisits.segments .cs)
  have agree : Code.AgreeOn (c.codeByte c.window) (e.codeByte e.window) 0
      (Opcode.immediateAt c.modRM) := by
    intro i _ below
    have inside : i < fetchWindow :=
      Nat.lt_of_lt_of_le below (Nat.le_trans (Opcode.immediateAt_le _) (by decide))
    rw [codeByte_window _ inside, codeByte_window _ inside, start, revisits.memory]
    exact stores.memory _ (apart i below)
  have operand := (rmOperand_of_agree agree).2
  refine ⟨operand, ?_⟩
  have registers : c.modRM.isRegister = false →
      ∀ r ∈ c.modRM.registers, e.regs.get r = c.regs.get r := by
    intro inMemory r member
    have kept : r ∈ c.modRM.operandRegisters w := by
      rwa [ModRM.operandRegisters, inMemory]
    rw [revisits.registers r kept, rmOperand_of_memory inMemory]
    exact c.get_fetched r
  have located := locate_congr operand revisits.override revisits.segments registers
  have held : e.load w (c.locate c.rmOperand) =
      (c.fetched.store w (c.locate c.rmOperand) value).load w (c.locate c.rmOperand) := by
    cases form : c.modRM.isRegister with
    | true =>
      have holder : w.holder c.modRM.rm ∈ c.modRM.operandRegisters w := by
        rw [ModRM.operandRegisters, if_pos form]
        exact List.mem_singleton_self _
      have same := revisits.registers _ holder
      rw [rmOperand_of_register form] at same ⊢
      exact Registers.read_congr same
    | false =>
      rw [rmOperand_of_memory form]
      have same := revisits.memory
      rw [rmOperand_of_memory form] at same
      exact MemoryBus.read_congr same w _
  rw [rmValue, located, held]
  exact c.fetched.load_store value ram

/-- The instruction at CS:IP has one operand besides registers and immediates. It consumes its
encoding and no more, and whatever it reads and writes of memory for the operand lies at the address
of the state in which it begins. -/
structure OneOperand (c : Cpu β) : Prop where
  length : c.fetch.length = 2 + c.modRM.displacementLength +
    (Opcode.ofByte c.config.variant (c.codeByte c.window 0)).immediateSize c.modRM
  operand : c.fetch.instr.operand? = some c.rmOperand
  address : c.modRM.isRegister = false →
    ∃ address, c.fetched.locate c.rmOperand = .mem address ∧
      (address.toNat : Int) = ((c.regs.seg c.operandSegment).toNat * 16 +
        c.modRM.offset (c.codeByte c.window) c.regs) % 0x100000
  reads : ∀ places d, Alike places c.fetched d →
    (∀ byte ∈ c.fetched.operandReads c.fetch.instr, byte ∉ places) →
      (d.exec c.fetch.instr).missing = c.dispatch.missing ∧
        Alike places c.dispatch.cpu (d.exec c.fetch.instr).cpu
  writes : Memory.AgreeOutside (c.fetched.operandWrites c.fetch.instr) (MemoryBus.memory c.bus)
    (MemoryBus.memory c.dispatch.cpu.bus)

theorem oneOperand_of_hasModRM
    (form : (Opcode.ofByte c.config.variant (c.codeByte c.window 0)).hasModRM = true)
    (known : c.fetch.instr ≠ .unknown) : c.OneOperand := by
  obtain ⟨length, names⟩ := Opcode.announced_decode (v := c.config.variant) form known
  have footprint {places : List UInt32} {d : Cpu β} (alike : Alike places c.fetched d)
      (outside : ∀ byte ∈ c.fetched.operandReads c.fetch.instr, byte ∉ places) :=
    alike.exec_operand names outside
  refine ⟨length, names, ?_, ?_, ?_⟩
  · intro inMemory
    obtain ⟨address, located, number⟩ := toNat_locate inMemory
    exact ⟨address, (c.locate_setIp _ _).trans located, number⟩
  · intro places d alike outside
    have both := footprint alike outside
    exact ⟨both.missing, both.cpu.toAlike⟩
  · exact (footprint (.refl [] c.fetched) fun _ _ => List.not_mem_nil).cpu.changed

/-- The operand of a ModRM byte is decoded once: the instruction goes to it at one address, whatever
it does to the registers meanwhile, and reads there what it has written. -/
theorem operand_decoded_once
    (form : (Opcode.ofByte c.config.variant (c.codeByte c.window 0)).hasModRM = true)
    (known : c.fetch.instr ≠ .unknown) :
    c.OneOperand ∧ ∀ w value,
      StoresOnly w (c.locate c.rmOperand) c.fetched
        (c.fetched.store w (c.locate c.rmOperand) value) ∧
      ((∀ byte ∈ (c.locate c.rmOperand).bytes w, isRam byte) →
        (∀ i < c.fetch.length,
          wrapAddress (c.regs.codeAddress + i.toUInt32) ∉ (c.locate c.rmOperand).bytes w) →
        ∀ e, Revisits w c (c.fetched.store w (c.locate c.rmOperand) value) e →
          e.rmOperand = c.rmOperand ∧ e.rmValue w = w.trim value) := by
  have one := oneOperand_of_hasModRM form known
  refine ⟨one, fun w value => ⟨c.fetched.storesOnly_store w _ value, ?_⟩⟩
  intro ram apart e revisits
  refine rmValue_of_revisits ram (fun i below => apart i ?_) revisits
  have length := one.length
  rw [Opcode.immediateAt] at below
  omega

end Cpu

/-- At XCHG BX,[BX]. -/
def exchange : Cpu FlatBus where
  regs := { cs := 0, ip := 0x10, bx := 0x200 }
  bus := { memory := (((Memory.zero.set 0x10 0x87).set 0x11 0x1F).set 0x200 0x34).set 0x201 0x12 }
  config := .ofRatio .i8086 4 false

theorem fetch_exchange : exchange.codeByte exchange.window 0 = 0x87 ∧
    exchange.fetch = ⟨.xchgRm .word (.mem (.based .bx)) ⟨3, by decide⟩, 2⟩ := by
  have opcode : exchange.codeByte exchange.window 0 = 0x87 := by
    rw [exchange.codeByte_window (by decide)]
    decide
  have second : exchange.codeByte exchange.window 1 = 0x1F := by
    rw [exchange.codeByte_window (by decide)]
    decide
  have entry : Opcode.ofByte exchange.config.variant 0x87 = .xchgRm .word := by decide
  refine ⟨opcode, ?_⟩
  rw [Cpu.fetch, decode, opcode, entry, Opcode.decode, Opcode.withOperand, Opcode.modRM, second]
  rfl

/-- BX changes before the operand is written, and still the write goes to where BX pointed. What is
written there by hand is what the same encoding reads. -/
theorem operand_decoded_once_exchange :
    (Opcode.ofByte exchange.config.variant (exchange.codeByte exchange.window 0)).hasModRM = true ∧
      exchange.fetch.instr ≠ .unknown ∧ exchange.dispatch.cpu.regs.bx = 0x1234 ∧
      (memory exchange.dispatch.cpu.bus).readWord 0x200 = 0x200 ∧
      Memory.AgreeOutside [0x200, 0x201] (memory exchange.bus)
        (memory exchange.dispatch.cpu.bus) ∧
      ((exchange.fetched.store .word (exchange.locate exchange.rmOperand) 0xABCD).setIp
        exchange.regs.ip).rmValue .word = 0xABCD := by
  obtain ⟨opcode, fetch⟩ := fetch_exchange
  have form : (Opcode.ofByte exchange.config.variant
      (exchange.codeByte exchange.window 0)).hasModRM = true := by
    rw [opcode]
    rfl
  have known : exchange.fetch.instr ≠ .unknown := by
    rw [fetch]
    exact Instr.noConfusion
  obtain ⟨one, again⟩ := Cpu.operand_decoded_once form known
  have dispatch : exchange.dispatch =
      .ok ((exchange.setIp 0x12).xchgRm .word (.mem (.based .bx)) ⟨3, by decide⟩) := by
    rw [Cpu.dispatch, fetch]
    rfl
  -- for any processor, lest the memory of this one be looked into
  have swapped (c : Cpu FlatBus) (m : MemOperand) :
      (c.xchgRm .word (.mem m) ⟨3, by decide⟩).regs.bx = (memory c.bus).readWord (c.address m) ∧
        memory (c.xchgRm .word (.mem m) ⟨3, by decide⟩).bus =
          (memory c.bus).writeWord (c.address m) c.regs.bx := ⟨rfl, rfl⟩
  have address : (exchange.setIp 0x12).address (.based .bx) = 0x200 := by decide
  obtain ⟨bx, stored⟩ := swapped (exchange.setIp 0x12) (.based .bx)
  rw [address] at bx stored
  have word : (memory exchange.bus).readWord 0x200 = 0x1234 := by
    have low : (memory exchange.bus).get 0x200 = 0x34 := by decide +kernel
    have high : (memory exchange.bus).get (0x200 + 1) = 0x12 := by decide +kernel
    rw [Memory.readWord_eq, low, high]
    decide
  have places : exchange.fetched.operandWrites exchange.fetch.instr = [0x200, 0x201] := by
    rw [fetch]
    decide
  have located : exchange.locate exchange.rmOperand = .mem 0x200 := by
    have operand := one.operand
    rw [fetch] at operand
    rw [← Option.some.inj operand]
    decide
  have ram : ∀ byte ∈ (exchange.locate exchange.rmOperand).bytes .word, isRam byte := by
    rw [located]
    exact List.forall_mem_cons.2 ⟨by decide, List.forall_mem_singleton.2 (by decide)⟩
  have apart : ∀ i < exchange.fetch.length, wrapAddress (exchange.regs.codeAddress + i.toUInt32) ∉
      (exchange.locate exchange.rmOperand).bytes .word := by
    rw [located, fetch]
    decide
  have visit := exchange.revisits_setIp .word 0xABCD
  refine ⟨form, known, ?_, ?_, places ▸ one.writes, ((again .word 0xABCD).2 ram apart _ visit).2⟩
  · rw [dispatch]
    exact bx.trans word
  · rw [dispatch, Outcome.ok, stored]
    exact Memory.readWord_writeWord_self _ _ (by decide) (by decide)

end RealMode
