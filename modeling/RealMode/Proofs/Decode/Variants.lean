import RealMode.Proofs.Cpu.Disguise

/-!
Code that both variants read alike. Apart from the opcodes that the 80186 takes for instructions of
its own, the forms that have no meaning, and the move to CS, an encoding is the same instruction on
both, and one that they agree on.
-/

namespace RealMode
namespace Opcode

/-- Opcodes that the 80186 has another use for, or none, and those of the coprocessor. -/
def Departs (b : UInt8) : Prop :=
  b = 0x0F ∨ (0x60 ≤ b ∧ b ≤ 0x6F) ∨ (b = 0xC0 ∨ b = 0xC1 ∨ b = 0xC8 ∨ b = 0xC9) ∨
    (0xD8 ≤ b ∧ b ≤ 0xDF) ∨ b = 0xF1

instance (b : UInt8) : Decidable (Departs b) :=
  inferInstanceAs (Decidable (_ ∨ _))

/-- Forms that have no meaning on the 8086. -/
def Meaningless (b : UInt8) (m : ModRM) : Prop :=
  (b = 0xFE ∧ 2 ≤ m.reg.val) ∨
    (b = 0xFF ∧ (m.reg = 7 ∨ (m.reg = 3 ∨ m.reg = 5) ∧ m.isRegister = true)) ∨
    ((b = 0x8F ∨ b = 0xC6 ∨ b = 0xC7) ∧ m.reg ≠ 0) ∨
    ((b = 0x8D ∨ b = 0xC4 ∨ b = 0xC5) ∧ m.isRegister = true)

instance (b : UInt8) (m : ModRM) : Decidable (Meaningless b m) :=
  inferInstanceAs (Decidable (_ ∨ _))

def MovesToCs (b : UInt8) (m : ModRM) : Prop :=
  b = 0x8E ∧ (m.reg = 1 ∨ m.reg = 5)

instance (b : UInt8) (m : ModRM) : Decidable (MovesToCs b m) :=
  inferInstanceAs (Decidable (_ ∧ _))

end Opcode

/-- The next instruction is one of those that the two processors share. -/
structure Portable (code : Code) : Prop where
  stays : ¬ Opcode.Departs (code 0)
  meaningful : ¬ Opcode.Meaningless (code 0) (Opcode.modRM code)
  notToCs : ¬ Opcode.MovesToCs (code 0) (Opcode.modRM code)

namespace Opcode

/-- What an opcode asks of its ModRM byte to be read as an instruction with one meaning. -/
def Known (m : ModRM) : Opcode → Prop
  | plain instr => instr.differs = false
  | lea | loadFar _ | bound => ¬ m.isRegister = true
  | popRm | movImm _ => m.reg = 0
  | stepByte => m.reg = 0 ∨ m.reg = 1
  | stepWord => m.reg ≠ 7 ∧ (m.reg = 3 ∨ m.reg = 5 → ¬ m.isRegister = true)
  | movToSeg => m.segment ≠ .cs
  | escape => False
  | _ => True

variable {code : Code}

theorem differs_withMemory {instr : ModRM → MemOperand → Instr}
    (agreed : ∀ m mem, (instr m mem).differs = false)
    (memory : ¬ (modRM code).isRegister = true) :
    (withMemory code instr).instr.differs = false := by
  rw [withMemory, if_neg memory]
  exact agreed _ _

theorem differs_stepWord (known : stepWord.Known (modRM code)) :
    (decodeStepWord code).instr.differs = false := by
  rw [decodeStepWord]
  split
  case h_4 three => exact differs_withMemory (fun _ _ => rfl) (known.2 (.inl three))
  case h_6 five => exact differs_withMemory (fun _ _ => rfl) (known.2 (.inr five))
  case h_8 seven => exact absurd seven known.1
  all_goals rfl

theorem decode_of_known {o : Opcode} (known : o.Known (modRM code)) :
    o.decode .i80186 code = o.decode .i8086 code ∧
      (o.decode .i8086 code).instr.differs = false := by
  cases o with
  | plain instr => exact ⟨rfl, known⟩
  | movToSeg =>
      have on80186 : movToSeg.decode .i80186 code = movToSeg.decode .i8086 code :=
        if_neg fun toCs => known toCs.2
      exact ⟨on80186, rfl⟩
  | lea | loadFar | bound => exact ⟨rfl, differs_withMemory (fun _ _ => rfl) known⟩
  | popRm | movImm =>
      have zero : (modRM code).reg.val = 0 := congrArg Fin.val known
      refine ⟨rfl, ?_⟩
      rw [decode, if_pos zero]
      rfl
  | stepByte =>
      refine ⟨rfl, ?_⟩
      rcases known with zero | one
      · simp only [decode, decodeStepByte, zero]
        rfl
      · simp only [decode, decodeStepByte, one]
        rfl
  | stepWord => exact ⟨rfl, differs_stepWord known⟩
  | escape => exact known.elim
  | unary w =>
      refine ⟨rfl, ?_⟩
      simp only [decode, decodeUnary]
      split <;> rfl
  | _ => exact ⟨rfl, rfl⟩

/-- Whether it does not matter to an opcode what its ModRM byte is. -/
def isRegular : Opcode → Bool
  | plain instr => !instr.differs
  | movToSeg | lea | loadFar _ | popRm | stepByte | stepWord | bound | escape | movImm _ => false
  | _ => true

theorem known_of_isRegular {o : Opcode} (regular : o.isRegular = true) (m : ModRM) :
    o.Known m := by
  cases o with
  | plain instr => simpa [isRegular, Known] using regular
  | movToSeg | lea | loadFar | popRm | stepByte | stepWord | bound | escape | movImm =>
      cases regular
  | _ => trivial

def irregular : List UInt8 :=
  [0x8D, 0x8E, 0x8F, 0xC4, 0xC5, 0xC6, 0xC7, 0xFE, 0xFF]

theorem mem_irregular {b : UInt8} : b ∈ irregular ↔ b = 0x8D ∨ b = 0x8E ∨ b = 0x8F ∨ b = 0xC4 ∨
    b = 0xC5 ∨ b = 0xC6 ∨ b = 0xC7 ∨ b = 0xFE ∨ b = 0xFF := by
  simp [irregular]

theorem isRegular_on8086 (b : UInt8) (stays : ¬ Departs b) (regular : b ∉ irregular) :
    (on8086 b).isRegular = true := by
  revert b
  exact forall_byte (by decide +kernel)

theorem new80186?_of_stays (b : UInt8) (stays : ¬ Departs b) : new80186? b = none := by
  revert b
  exact forall_byte (by decide +kernel)

theorem stepByte_known {m : ModRM} (known : ¬ 2 ≤ m.reg.val) : stepByte.Known m := by
  have low : ∀ reg : Fin 8, ¬ 2 ≤ reg.val → reg = 0 ∨ reg = 1 := by decide
  exact low m.reg known

theorem stepWord_known {m : ModRM}
    (known : ¬ (m.reg = 7 ∨ (m.reg = 3 ∨ m.reg = 5) ∧ m.isRegister = true)) : stepWord.Known m := by
  rw [not_or, not_and] at known
  exact known

theorem movToSeg_known {m : ModRM} (notToCs : ¬ (m.reg = 1 ∨ m.reg = 5)) : movToSeg.Known m := by
  have others : ∀ reg : Fin 8, ¬ (reg = 1 ∨ reg = 5) → SegReg.ofIndex (lowTwo reg.val) ≠ .cs := by
    decide
  exact others m.reg notToCs

theorem known_on8086 {b : UInt8} {m : ModRM} (stays : ¬ Departs b)
    (meaningful : ¬ Meaningless b m) (notToCs : ¬ MovesToCs b m) : (on8086 b).Known m := by
  by_cases isIrregular : b ∈ irregular
  · rw [Meaningless, not_or, not_or, not_or, not_and, not_and, not_and, not_and] at meaningful
    obtain ⟨stepByte, stepWord, zero, memory⟩ := meaningful
    rcases mem_irregular.1 isIrregular with
      rfl | rfl | rfl | rfl | rfl | rfl | rfl | rfl | rfl
    · exact memory (.inl rfl)
    · exact movToSeg_known fun toCs => notToCs ⟨rfl, toCs⟩
    · exact Classical.not_not.1 (zero (.inl rfl))
    · exact memory (.inr (.inl rfl))
    · exact memory (.inr (.inr rfl))
    · exact Classical.not_not.1 (zero (.inr (.inl rfl)))
    · exact Classical.not_not.1 (zero (.inr (.inr rfl)))
    · exact stepByte_known (stepByte rfl)
    · exact stepWord_known (stepWord rfl)
  · exact known_of_isRegular (isRegular_on8086 b stays isIrregular) m

end Opcode

/-- Both variants read what is portable as one instruction, and agree on it. -/
theorem decode_of_portable {code : Code} (portable : Portable code) :
    decode .i80186 code = decode .i8086 code ∧ (decode .i8086 code).instr.differs = false := by
  have same : Opcode.ofByte .i80186 (code 0) = Opcode.on8086 (code 0) := by
    rw [Opcode.ofByte, Opcode.new80186?_of_stays _ portable.stays]
    rfl
  rw [decode, decode, same]
  exact Opcode.decode_of_known
    (Opcode.known_on8086 portable.stays portable.meaningful portable.notToCs)

theorem portable_of_regular {code : Code} {b : UInt8} (first : code 0 = b)
    (stays : ¬ Opcode.Departs b) (regular : b ∉ Opcode.irregular) : Portable code := by
  subst first
  refine ⟨stays, ?_, ?_⟩
  · rintro (⟨same, _⟩ | ⟨same, _⟩ | ⟨same | same | same, _⟩ | ⟨same | same | same, _⟩) <;>
      exact regular (by rw [same]; decide)
  · rintro ⟨same, _⟩
    exact regular (by rw [same]; decide)

end RealMode
