import RealMode.Proofs.Cpu.BackToBack
import RealMode.Proofs.Decode.Variants

/-!
What the 8086 passes over. An encoding that its ModRM byte shows to have no meaning ends with this
byte: nothing changes but IP, and the displacement that the byte announces is what is executed next.
The operand of a coprocessor instruction is consumed whole.
-/

namespace RealMode
namespace Opcode

variable {code : Code}

theorem decodeStepByte_of_meaningless (form : 2 ≤ (modRM code).reg.val) :
    decodeStepByte code = unknownForm := by
  unfold decodeStepByte
  split
  next zero =>
    rw [zero] at form
    exact absurd form (by decide)
  next one =>
    rw [one] at form
    exact absurd form (by decide)
  next => rfl

theorem withMemory_of_isRegister (instr : ModRM → MemOperand → Instr)
    (register : (modRM code).isRegister = true) : withMemory code instr = unknownForm :=
  if_pos register

theorem decodeStepWord_of_meaningless (form : (modRM code).reg = 7 ∨
      ((modRM code).reg = 3 ∨ (modRM code).reg = 5) ∧ (modRM code).isRegister = true) :
    decodeStepWord code = unknownForm := by
  unfold decodeStepWord
  rcases form with seven | ⟨three | five, register⟩
  · rw [seven]
  · rw [three]
    exact withMemory_of_isRegister _ register
  · rw [five]
    exact withMemory_of_isRegister _ register

theorem decode_popRm_of_ne {v : Variant} (form : (modRM code).reg ≠ 0) :
    popRm.decode v code = unknownForm :=
  if_neg fun zero => form (Fin.ext zero)

theorem decode_movImm_of_ne {v : Variant} {w : Width} (form : (modRM code).reg ≠ 0) :
    (movImm w).decode v code = unknownForm :=
  if_neg fun zero => form (Fin.ext zero)

/-- The form ends with its ModRM byte, whatever this announces. -/
theorem decode_of_meaningless {b : UInt8} (form : Meaningless b (modRM code)) :
    (on8086 b).decode .i8086 code = unknownForm := by
  rcases form with ⟨rfl, form⟩ | ⟨rfl, form⟩ | ⟨rfl | rfl | rfl, form⟩ | ⟨rfl | rfl | rfl, form⟩
  · exact decodeStepByte_of_meaningless form
  · exact decodeStepWord_of_meaningless form
  · exact decode_popRm_of_ne form
  · exact decode_movImm_of_ne form
  · exact decode_movImm_of_ne form
  · exact withMemory_of_isRegister (fun m mem => .lea m.reg mem) form
  · exact withMemory_of_isRegister (fun m mem => .loadFar .es m.reg mem) form
  · exact withMemory_of_isRegister (fun m mem => .loadFar .ds m.reg mem) form

/-- The opcodes D8 to DF. -/
def IsEscape (b : UInt8) : Prop :=
  0xD8 ≤ b ∧ b ≤ 0xDF

instance (b : UInt8) : Decidable (IsEscape b) :=
  inferInstanceAs (Decidable (_ ∧ _))

theorem on8086_of_isEscape (b : UInt8) (isEscape : IsEscape b) : on8086 b = escape := by
  revert b
  exact forall_byte (by decide +kernel)

end Opcode

namespace Cpu

open MemoryBus (memory)

variable {β : Type} [Bus β] [MemoryBus β]

/-- The bytes in a straight line from CS:IP on. -/
def linear (c : Cpu β) : Code :=
  fun i => (memory c.bus).get (c.regs.codeAddress + i.toUInt32)

/-- `d` comes from `c` by passing over so many bytes. -/
structure PassesOver (c d : Cpu β) (length : Nat) : Prop where
  regs : d.regs = { c.regs with ip := c.regs.ip + length.toUInt16 }
  memory : memory d.bus = memory c.bus
  config : d.config = c.config

omit [Bus β] [MemoryBus β] in
/-- The code address moves with IP as long as IP does not wrap. -/
theorem wrapAddress_codeAddress_add (c : Cpu β) {length : Nat}
    (inside : c.regs.ip.toNat + length < 0x10000) (i : Nat) :
    wrapAddress ((c.setIp (c.regs.ip + length.toUInt16)).regs.codeAddress + i.toUInt32) =
      wrapAddress (c.regs.codeAddress + (length + i).toUInt32) := by
  have moved : (c.regs.ip + length.toUInt16).toNat = c.regs.ip.toNat + length := by
    rw [UInt16.toNat_add, Nat.toUInt16_eq, UInt16.toNat_ofNat']
    omega
  have start : c.regs.codeAddress.toNat = _ := toNat_physical c.regs.cs c.regs.ip
  have stop : (c.setIp (c.regs.ip + length.toUInt16)).regs.codeAddress.toNat = _ :=
    toNat_physical c.regs.cs (c.regs.ip + length.toUInt16)
  apply UInt32.toNat_inj.1
  rw [Memory.toNat_wrapAddress_add, Memory.toNat_wrapAddress_add, start, stop, moved]
  omega

/-- Unless the segment ends there, the bytes behind are executed next. -/
theorem PassesOver.next {c d : Cpu β} {length : Nat} (h : PassesOver c d length)
    (inside : c.regs.ip.toNat + length < 0x10000) :
    d.next = decode c.config.variant fun i => c.linear (length + i) := by
  rw [next_linear, h.config, h.memory, h.regs]
  congr 1
  funext i
  exact Memory.get_congr _ (c.wrapAddress_codeAddress_add inside i)

theorem next_of_meaningless {c : Cpu β} (variant : c.config.variant = .i8086)
    (form : Opcode.Meaningless (c.linear 0) (Opcode.modRM c.linear)) : c.next = ⟨.unknown, 2⟩ := by
  rw [next_linear, variant]
  exact Opcode.decode_of_meaningless form

theorem next_of_isEscape {c : Cpu β} (variant : c.config.variant = .i8086)
    (isEscape : Opcode.IsEscape (c.linear 0)) :
    c.next = ⟨.escape (.ofModRM (Opcode.modRM c.linear) c.linear),
      Opcode.immediateAt (Opcode.modRM c.linear)⟩ := by
  have found : Opcode.ofByte .i8086 (c.linear 0) = .escape :=
    Opcode.on8086_of_isEscape _ isEscape
  rw [next_linear, variant]
  change (Opcode.ofByte .i8086 (c.linear 0)).decode .i8086 c.linear = _
  rw [found]
  rfl

/-- An instruction that is done when its bytes have been consumed and some clocks spent. -/
theorem step_of_passed {c : Cpu β} {clocks : Nat} (running : c.halted = false)
    (trap : c.regs.flags.trap = false) (masked : c.regs.flags.interrupt = false)
    (done : c.ahead.exec c.next.instr = .ok (c.ahead.spend clocks)) :
    ∃ d, c.step = .ok d ∧ PassesOver c d c.next.length := by
  refine ⟨(c.ahead.spend clocks).retire, step_of_masked running trap done masked, ?_⟩
  exact ⟨rfl, c.memory_ahead, rfl⟩

/-- An 8086 that runs with trap and interrupts off. -/
structure Unwatched8086 (c : Cpu β) : Prop where
  variant : c.config.variant = .i8086
  running : c.halted = false
  trap : c.regs.flags.trap = false
  masked : c.regs.flags.interrupt = false

theorem Unwatched8086.step_of_meaningless {c : Cpu β} (h : c.Unwatched8086)
    (form : Opcode.Meaningless (c.linear 0) (Opcode.modRM c.linear)) :
    ∃ d, c.step = .ok d ∧ PassesOver c d 2 := by
  have next := next_of_meaningless h.variant form
  have done : c.ahead.exec c.next.instr = .ok (c.ahead.spend 0) := by
    rw [next]
    exact unknown_of_8086 (c := c.ahead) h.variant
  obtain ⟨d, step, passed⟩ := step_of_passed h.running h.trap h.masked done
  rw [next] at passed
  exact ⟨d, step, passed⟩

theorem Unwatched8086.step_of_isEscape {c : Cpu β} (h : c.Unwatched8086)
    (isEscape : Opcode.IsEscape (c.linear 0)) :
    ∃ d, c.step = .ok d ∧ PassesOver c d (Opcode.immediateAt (Opcode.modRM c.linear)) := by
  have next := next_of_isEscape h.variant isEscape
  have done := escape_of_8086 (c := c.ahead) h.variant
    (.ofModRM (Opcode.modRM c.linear) c.linear)
  obtain ⟨d, step, passed⟩ := step_of_passed h.running h.trap h.masked (by rw [next]; exact done)
  rw [next] at passed
  exact ⟨d, step, passed⟩

end Cpu

open Opcode (modRM immediateAt)

/-- Two bytes are the whole form just if it has no displacement. -/
theorem ModRM.immediateAt_toUInt16_eq_two (m : ModRM) :
    2 = (immediateAt m).toUInt16 ↔ m.displacementLength = 0 := by
  have few := m.displacementLength_le
  rw [immediateAt]
  generalize m.displacementLength = n at few
  have each : ∀ n ≤ 2, 2 = (2 + n).toUInt16 ↔ n = 0 := by decide
  exact each n few

/-- What the 8086 does not know it passes over up to the ModRM byte, so that it stands behind the
displacement only if there is none and else executes it. The operand of a coprocessor instruction
is passed over with its displacement. -/
theorem form_passed_over {β : Type} [Bus β] [MemoryBus β] {c : Cpu β} (h : c.Unwatched8086) :
    (Opcode.Meaningless (c.linear 0) (modRM c.linear) → ∃ d, c.step = .ok d ∧
      c.PassesOver d 2 ∧
      (d.regs.ip = c.regs.ip + (immediateAt (modRM c.linear)).toUInt16 ↔
        (modRM c.linear).displacementLength = 0) ∧
      (c.regs.ip.toNat + 2 < 0x10000 → d.next = decode .i8086 fun i => c.linear (2 + i))) ∧
    (Opcode.IsEscape (c.linear 0) → ∃ d, c.step = .ok d ∧
      c.PassesOver d (immediateAt (modRM c.linear))) := by
  constructor
  · intro form
    obtain ⟨d, step, passed⟩ := h.step_of_meaningless form
    refine ⟨d, step, passed, ?_, fun inside => ?_⟩
    · rw [passed.regs]
      exact (UInt16.add_right_inj _).trans (modRM c.linear).immediateAt_toUInt16_eq_two
    · rw [← h.variant]
      exact passed.next inside
  · exact h.step_of_isEscape

/-- FE 7E 40: a form without a meaning whose displacement reads as an increment. -/
def displacedForm : Cpu FlatBus where
  regs := { ip := 0x10 }
  bus := { memory := ((Memory.zero.set 0x10 0xFE).set 0x11 0x7E).set 0x12 0x40 }
  config := .ofRatio .i8086 4 false

theorem unwatched_displacedForm : displacedForm.Unwatched8086 :=
  ⟨rfl, rfl, rfl, rfl⟩

theorem meaningless_displacedForm :
    Opcode.Meaningless (displacedForm.linear 0) (modRM displacedForm.linear) := by
  decide

theorem form_passed_over_increment :
    displacedForm.Unwatched8086 ∧
      Opcode.Meaningless (displacedForm.linear 0) (modRM displacedForm.linear) ∧
      ∃ d, displacedForm.step = .ok d ∧ displacedForm.PassesOver d 2 ∧ d.next = ⟨.incReg 0, 1⟩ := by
  obtain ⟨d, step, passed, _, behind⟩ :=
    (form_passed_over unwatched_displacedForm).1 meaningless_displacedForm
  refine ⟨unwatched_displacedForm, meaningless_displacedForm, d, step, passed, ?_⟩
  rw [behind (by decide)]
  decide

/-- The displacement is not passed over. -/
theorem displacement_left_behind :
    ¬ ∀ c : Cpu FlatBus, c.Unwatched8086 →
      Opcode.Meaningless (c.linear 0) (modRM c.linear) →
      ∃ d, c.step = .ok d ∧ c.PassesOver d (immediateAt (modRM c.linear)) := by
  intro all
  obtain ⟨d, step, whole⟩ := all _ unwatched_displacedForm meaningless_displacedForm
  obtain ⟨e, same, short⟩ := unwatched_displacedForm.step_of_meaningless meaningless_displacedForm
  rw [step] at same
  cases same
  have three : immediateAt (modRM displacedForm.linear) = 3 := by decide
  have ip := congrArg Registers.ip (whole.regs.symm.trans short.regs)
  rw [three] at ip
  exact absurd ip (by decide)

end RealMode
