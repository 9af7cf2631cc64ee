import RealMode.Proofs.Arithmetic.Division
import RealMode.Proofs.Cpu.BackToBack
import RealMode.Proofs.Cpu.Footprint
import RealMode.Proofs.Cpu.Variants
import RealMode.Proofs.Decode.Synonyms

/-!
Synonyms do the same. Two processors that only the place and the bytes of the next instruction tell
apart are not told apart by more after a step, whichever of its encodings each of them finds. What
the instructions leave differently is the clock alone.
-/

namespace RealMode

open MemoryBus (memory)

/-- Instructions with a ModRM operand that neither look at IP nor set it. -/
def Instr.ignoresIp : Instr → Bool
  | aluToRm _ _ _ _ | aluToReg _ _ _ _ | aluImm _ _ _ _ | testReg _ _ _ | testImm _ _ _ => true
  | incRm _ _ | decRm _ _ | complement _ _ | negate _ _ | shift _ _ _ _ => true
  | movToRm _ _ _ | movToReg _ _ _ | movImm _ _ _ | xchgRm _ _ _ | pushRm _ | popRm _ => true
  | _ => false

namespace Instr.Equivalent

variable {cl : UInt8} {i j : Instr}

theorem ignoresIp (h : Equivalent cl i j) : i.ignoresIp = true := by
  cases h <;> rfl

theorem operand (h : Equivalent cl i j) : ∃ rm, i.operand? = some rm := by
  cases h <;> exact ⟨_, rfl⟩

theorem goesOn (h : Equivalent cl i j) : i.GoesOn ∧ j.GoesOn := by
  cases h <;> exact ⟨⟨rfl, nofun⟩, ⟨rfl, nofun⟩⟩

end Instr.Equivalent

theorem Flags.shift_sal (f : Flags) (w : Width) (value : UInt16) (count : UInt8) :
    f.shift .sal w value count = f.shift .shl w value count := by
  have bits (n : Nat) : ∀ s, shiftBits .sal w n s = shiftBits .shl w n s := by
    induction n with
    | zero => exact fun _ => rfl
    | succ n ih => exact fun s => ih (shiftBit .shl w s)
  simp only [shift, bits]

namespace Cpu

variable {β : Type} [Bus β] (c : Cpu β) (ip : UInt16)

section

omit [Bus β]

theorem setReg_setIp (w : Width) (i : Fin 8) (value : UInt16) :
    (c.setIp ip).setReg w i value = (c.setReg w i value).setIp ip := by
  cases w with
  | byte => cases h : Reg8.ofIndex i <;> simp only [setReg, Registers.write, h] <;> rfl
  | word => cases h : Reg16.ofIndex i <;> simp only [setReg, Registers.write, h] <;> rfl

theorem setFlags_setIp (f : Flags) : (c.setIp ip).setFlags f = (c.setFlags f).setIp ip := rfl

theorem spend_setIp (n : Nat) : (c.setIp ip).spend n = (c.spend n).setIp ip := rfl

theorem flags_setIp : (c.setIp ip).regs.flags = c.regs.flags := rfl

theorem shiftCount_setIp (source : ShiftCount) :
    (c.setIp ip).shiftCount source = c.shiftCount source := by
  cases source <;> rfl

theorem shiftCount_of_isOne {count : ShiftCount} (one : count.isOne (c.regs.get8 .cl)) :
    c.shiftCount count = 1 := by
  cases count with
  | one => rfl
  | cl | immediate => exact one

theorem setReg_comm {r : Fin 8} (other : r ≠ 0) (a b : UInt16) :
    (c.setReg .word r a).setReg .word 0 b = (c.setReg .word 0 b).setReg .word r a := by
  have name : Reg16.ofIndex r ≠ .ax := by
    revert r
    decide
  simp only [setReg, Registers.write]
  cases h : Reg16.ofIndex r with
  | ax => exact absurd h name
  | _ => rfl

end

theorem read_setIp (w : Width) (i : Fin 8) : (c.setIp ip).regs.read w i = c.regs.read w i :=
  c.load_setIp ip w (.reg i)

theorem loadAt_setIp (w : Width) (l : Location) : (c.setIp ip).load w l = c.load w l := by
  cases l with
  | reg i => exact c.read_setIp ip w i
  | mem address => rfl

theorem store_setIp (w : Width) (l : Location) (value : UInt16) :
    (c.setIp ip).store w l value = (c.store w l value).setIp ip := by
  cases l with
  | reg i => exact c.setReg_setIp ip w i value
  | mem address => rfl

theorem push_setIp (value : UInt16) : (c.setIp ip).push value = (c.push value).setIp ip := rfl

theorem pop_setIp : (c.setIp ip).pop = (c.pop.1, c.pop.2.setIp ip) := rfl

theorem modify_setIp (w : Width) (l : Location) (f : Flags → UInt16 → UInt16 × Flags) :
    (c.setIp ip).modify w l f = (c.modify w l f).setIp ip := by
  simp only [modify, loadAt_setIp, flags_setIp, setFlags_setIp, store_setIp]

/-- Where such an instruction has come from makes no difference to it. -/
theorem exec_setIp {i : Instr} (ignores : i.ignoresIp = true) :
    (c.setIp ip).exec i = .ok ((c.exec i).cpu.setIp ip) := by
  cases i with
  | aluToRm | aluToReg | aluImm =>
    simp only [exec, aluToRm, aluToReg, aluImm, locate_setIp, loadAt_setIp, read_setIp, flags_setIp,
      setFlags_setIp, store_setIp, setReg_setIp, spend_setIp]
    -- with a result to store, and without one
    split <;> rfl
  | incRm | decRm | complement | negate | shift =>
    simp only [exec, incRm, decRm, complement, negate, shift, locate_setIp, shiftCount_setIp,
      modify_setIp, spend_setIp]
    rfl
  | testReg | testImm =>
    simp only [exec, testReg, testImm, test, locate_setIp, loadAt_setIp, read_setIp, flags_setIp,
      setFlags_setIp, spend_setIp]
    rfl
  | movToRm | movToReg | movImm | xchgRm =>
    simp only [exec, movToRm, movToReg, movImm, xchgRm, locate_setIp, loadAt_setIp, read_setIp,
      store_setIp, setReg_setIp, spend_setIp]
    rfl
  | pushRm | popRm =>
    simp only [exec, pushRm, popRm, locate_setIp, loadAt_setIp, push_setIp, pop_setIp, store_setIp,
      spend_setIp]
    rfl
  | _ => cases ignores

theorem ip_exec {i : Instr} (ignores : i.ignoresIp = true) :
    (c.exec i).cpu.regs.ip = c.regs.ip :=
  (congrArg (fun o : Outcome β => o.cpu.regs.ip) (c.exec_setIp c.regs.ip ignores) :)

/-- The short form for the accumulator is at its operand what the long one is. -/
theorem aluImm_accumulator (op : AluOp) (w : Width) (value : UInt16) :
    c.aluImm op w (.reg accumulator) value = c.aluAcc op w value := by
  rw [aluImm, aluAcc, locate, load]
  dsimp only
  cases (c.regs.flags.alu op w (c.regs.read w accumulator) value).1 with
  | none => rfl
  | some result => rfl

/-- Equivalent instructions differ in their clocks at most. -/
theorem exec_equivalent {i j : Instr} (h : Instr.Equivalent (c.regs.get8 .cl) i j) :
    (c.exec j).cpu = { (c.exec i).cpu with clock := (c.exec j).cpu.clock } := by
  cases h with
  | exchangeBack r other =>
    exact congrArg (·.spend 3) (c.setReg_comm other c.regs.ax (c.regs.read .word r)).symm
  | shiftLeft =>
    simp only [exec, shift, Flags.shift_sal]
  | shiftOnce op w rm first second =>
    simp only [exec, shift, shiftCount_of_isOne c first, shiftCount_of_isOne c second]
    rfl
  | push r other =>
    simp only [exec, pushReg]
    rfl
  | accumulator op w value =>
    rw [exec, exec, aluImm_accumulator]
  | _ => rfl

theorem code_linear [MemoryBus β] (c : Cpu β) {i : Nat} (inside : i < fetchWindow) :
    c.code i = (memory c.bus).get (c.regs.codeAddress + i.toUInt32) := by
  rw [code, codeByte_window _ inside, memory_syncTimer]
  rfl

end Cpu

section

variable {β : Type} [Bus β] [MemoryBus β] {places : List UInt32} {c d : Cpu β} {i j : Instr}

namespace Alike

/-- Two processors apart in their places of code are no further apart when their instructions are
about to do their work. -/
theorem ahead (h : Alike places c (d.setIp c.regs.ip)) :
    Alike places c.ahead (d.ahead.setIp c.behind) := by
  refine ⟨?_, h.prefixes, h.config, ?_⟩
  · exact congrArg (fun regs : Registers => { regs with ip := c.behind }) h.regs
  · have same := h.memory
    rw [← c.memory_ahead] at same
    exact d.memory_ahead ▸ same

/-- A step adds nothing to its instruction that a program could see. -/
theorem step {ip : UInt16} (done : Alike places (c.ahead.exec i).cpu ((d.ahead.exec j).cpu.setIp ip))
    (first : c.Performs i) (second : d.Performs j) (goesOn : i.GoesOn) (alsoGoesOn : j.GoesOn) :
    Alike places c.step.cpu (d.step.cpu.setIp ip) := by
  obtain ⟨bus, same, stepped⟩ := first.step_eq goesOn
  obtain ⟨other, alsoSame, alsoStepped⟩ := second.step_eq alsoGoesOn
  rw [stepped, alsoStepped]
  refine ⟨done.regs, done.retire.prefixes, done.config, ?_⟩
  change Memory.AgreeOutside places (MemoryBus.memory bus) (MemoryBus.memory other)
  rw [same, alsoSame]
  exact done.memory

/-- Equivalent instructions keep two processors alike, wherever each of them has its code. -/
theorem equivalent (h : Alike places c (d.setIp c.regs.ip))
    (same : Instr.Equivalent (c.regs.get8 .cl) i j) (first : c.Performs i) (second : d.Performs j)
    (outside : ∀ byte ∈ c.ahead.operandReads i, byte ∉ places) :
    Alike places c.step.cpu (d.step.cpu.setIp c.step.cpu.regs.ip) := by
  obtain ⟨rm, names⟩ := same.operand
  obtain ⟨goesOn, alsoGoesOn⟩ := same.goesOn
  -- the first instruction does the same in both if the second processor is moved to the place of
  -- the first, and there the second instruction differs from it in the clock
  have abreast := (h.ahead.exec_operand names outside).cpu.toAlike
  rw [d.ahead.exec_setIp _ same.ignoresIp] at abreast
  have cl : d.ahead.regs.get8 .cl = c.regs.get8 .cl := congrArg (·.get8 .cl) h.regs
  have clocks := d.ahead.exec_equivalent (i := i) (j := j) (cl ▸ same)
  have ip : c.step.cpu.regs.ip = c.behind := by
    rw [first.regs_step goesOn, c.ahead.ip_exec same.ignoresIp]
    rfl
  rw [ip]
  refine Alike.step ?_ first second goesOn alsoGoesOn
  rw [clocks]
  exact ⟨abreast.regs, abreast.prefixes, abreast.config, abreast.memory⟩

end Alike

/-- What the next instruction does does not depend on which of its encodings it has. -/
theorem synonyms_agree (same : Alike places c (d.setIp c.regs.ip))
    (synonyms : Synonyms c.config.variant (c.regs.get8 .cl) c.code d.code)
    (first : c.Unhindered) (second : d.Unhindered)
    (outside : ∀ byte ∈ c.ahead.operandReads c.next.instr, byte ∉ places) :
    Alike places c.step.cpu (d.step.cpu.setIp c.step.cpu.regs.ip) := by
  have variant : d.config.variant = c.config.variant := congrArg (·.variant) same.config
  have decoded : d.next = decode c.config.variant d.code := variant ▸ rfl
  have equivalent : Instr.Equivalent (c.regs.get8 .cl) c.next.instr d.next.instr :=
    decoded ▸ synonyms.equivalent
  obtain ⟨goesOn, alsoGoesOn⟩ := equivalent.goesOn
  exact same.equivalent equivalent (first.performs rfl goesOn) (second.performs rfl alsoGoesOn)
    outside

end

/-- At MOV AX,ES:[200], or sixteen bytes further on at the short form of it. -/
def overridden : Cpu FlatBus where
  regs := { es := 0x30, ip := 0x10 }
  bus := { memory := (((((((((Memory.zero.set 0x10 0x8B).set 0x11 0x06).set 0x12 0).set 0x13 2).set
    0x20 0xA1).set 0x21 0).set 0x22 2).set 0x500 0x34).set 0x501 0x12) }
  prefixes := { segment := some .es }
  config := .ofRatio .i8086 4 false

theorem next_overridden : overridden.next = ⟨.movToReg .word 0 (.mem (.direct 0x200)), 4⟩ ∧
    (overridden.setIp 0x20).next = ⟨.movAccFrom .word 0x200, 3⟩ := by
  rw [Cpu.next_linear, Cpu.next_linear]
  decide

theorem synonyms_overridden :
    Synonyms .i8086 0 overridden.code (overridden.setIp 0x20).code := by
  have long : overridden.code 0 = 0x8B ∧ overridden.code 1 = 6 ∧ overridden.code 2 = 0 ∧
      overridden.code 3 = 2 := by
    repeat rw [Cpu.code_linear _ (by decide)]
    decide
  have short : (overridden.setIp 0x20).code 0 = 0xA1 ∧ (overridden.setIp 0x20).code 1 = 0 ∧
      (overridden.setIp 0x20).code 2 = 2 := by
    repeat rw [Cpu.code_linear _ (by decide)]
    decide
  obtain ⟨opcode, form, low, high⟩ := long
  obtain ⟨shortOpcode, shortLow, shortHigh⟩ := short
  refine .load .word opcode ?_ shortOpcode ?_
  · rw [Opcode.modRM, form]
    decide
  · rw [Code.word, Code.word, shortLow, shortHigh, low, high]

/-- Both forms read the word in the segment that the prefix names, and drop the prefix. -/
theorem synonyms_agree_overridden :
    overridden.Unhindered ∧ (overridden.setIp 0x20).Unhindered ∧
      overridden.step.cpu.regs.ax = 0x1234 ∧ overridden.step.cpu.prefixes = {} ∧
      Alike [] overridden.step.cpu
        ((overridden.setIp 0x20).step.cpu.setIp overridden.step.cpu.regs.ip) := by
  obtain ⟨long, short⟩ := next_overridden
  have performs : overridden.Performs (.movToReg .word 0 (.mem (.direct 0x200))) :=
    .of_masked rfl (by rw [long]) ⟨rfl, nofun⟩ rfl rfl
  have alsoPerforms : (overridden.setIp 0x20).Performs (.movAccFrom .word 0x200) :=
    .of_masked rfl (by rw [short]) ⟨rfl, nofun⟩ rfl rfl
  have first := performs.unhindered rfl
  have second := alsoPerforms.unhindered rfl
  have agree := synonyms_agree (.refl [] overridden) synonyms_overridden first second
    fun _ _ => List.not_mem_nil
  refine ⟨first, second, ?_, ?_, agree⟩
  · -- for any processor, lest the memory of this one be looked into
    have loaded (c : Cpu FlatBus) (m : MemOperand) :
        (c.exec (.movToReg .word 0 (.mem m))).cpu.regs.ax = (memory c.bus).readWord (c.address m) :=
      rfl
    have address : overridden.ahead.address (.direct 0x200) = 0x500 := by decide
    have low : (memory overridden.bus).get 0x500 = 0x34 := by decide +kernel
    have high : (memory overridden.bus).get (0x500 + 1) = 0x12 := by decide +kernel
    have word : (memory overridden.bus).readWord 0x500 = 0x1234 := by
      rw [Memory.readWord_eq, low, high]
      decide
    rw [performs.regs_step ⟨rfl, nofun⟩, loaded, Cpu.memory_ahead, address, word]
  · obtain ⟨_, _, done⟩ := performs.step_eq ⟨rfl, nofun⟩
    rw [done]
    rfl

end RealMode
