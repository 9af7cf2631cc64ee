import RealMode.Decode

/-!
How far decoding looks. An instruction is known from its own bytes: whatever agrees with it on them
is decoded to the same instruction, and no instruction is longer than opcode, ModRM byte and two
words.
-/

namespace RealMode

/-- The bytes of both are the same from `first` on up to `stop`. -/
def Code.AgreeOn (code other : Code) (first stop : Nat) : Prop :=
  ∀ i, first ≤ i → i < stop → other i = code i

namespace Code.AgreeOn

variable {code other : Code} {first stop : Nat}

theorem mono (h : AgreeOn code other first stop) {later earlier : Nat} (from_ : first ≤ later)
    (upTo : earlier ≤ stop) : AgreeOn code other later earlier := by
  intro i low high
  exact h i (Nat.le_trans from_ low) (Nat.lt_of_lt_of_le high upTo)

theorem word (h : AgreeOn code other first stop) {i : Nat} (low : first ≤ i) (high : i + 2 ≤ stop) :
    other.word i = code.word i := by
  rw [Code.word, Code.word, h i low (by omega), h (i + 1) (by omega) (by omega)]

theorem immediate (h : AgreeOn code other first stop) {w : Width} {i : Nat} (low : first ≤ i)
    (high : i + w.size ≤ stop) : other.immediate w i = code.immediate w i := by
  cases w with
  | byte =>
      change i + 1 ≤ stop at high
      rw [Code.immediate, Code.immediate, h i low (by omega)]
  | word => exact h.word low high

end Code.AgreeOn

theorem ModRM.displacementLength_le (m : ModRM) : m.displacementLength ≤ 2 := by
  unfold displacementLength
  split
  · split <;> decide
  all_goals decide

theorem Width.size_le (w : Width) : w.size ≤ 2 := by
  cases w <;> decide

open Code (AgreeOn)

theorem MemOperand.ofModRM_congr {m : ModRM} {code other : Code} (inMemory : m.isRegister = false)
    (h : AgreeOn code other 2 (Opcode.immediateAt m)) :
    MemOperand.ofModRM m other = MemOperand.ofModRM m code := by
  obtain ⟨mode, reg, rm⟩ := m
  have two : ∀ {stop : Nat}, AgreeOn code other 2 stop → 4 ≤ stop → other.word 2 = code.word 2 :=
    fun agree enough => agree.word (Nat.le_refl 2) enough
  match mode with
  | 0 =>
      simp only [Opcode.immediateAt, ModRM.displacementLength] at h
      simp only [MemOperand.ofModRM]
      split at h
      next direct => rw [two h (by decide)]
      next based => rw [if_neg based, if_neg based]
  | 1 =>
      simp only [MemOperand.ofModRM]
      rw [h 2 (Nat.le_refl 2) (Nat.lt_succ_self 2)]
  | 2 =>
      simp only [MemOperand.ofModRM]
      rw [two h (Nat.le_refl 4)]
  | 3 => cases inMemory

theorem Operand.ofModRM_congr {m : ModRM} {code other : Code}
    (h : AgreeOn code other 2 (Opcode.immediateAt m)) :
    Operand.ofModRM m other = Operand.ofModRM m code := by
  unfold Operand.ofModRM
  split
  next => rfl
  next inMemory => rw [MemOperand.ofModRM_congr (Bool.eq_false_iff.2 inMemory) h]

namespace Opcode

variable {v : Variant} {code other : Code}

theorem immediateAt_le (m : ModRM) : immediateAt m ≤ 4 :=
  Nat.add_le_add_left m.displacementLength_le 2

theorem modRM_congr {stop : Nat} (h : AgreeOn code other 0 stop) (enough : 2 ≤ stop) :
    modRM other = modRM code :=
  congrArg ModRM.ofByte (h 1 (Nat.zero_le 1) enough)

theorem withOperand_congr {instr : ModRM → Operand → Instr}
    (h : AgreeOn code other 0 (withOperand code instr).length) :
    withOperand other instr = withOperand code instr := by
  have form := modRM_congr h (Nat.le_add_right 2 _)
  have operand := Operand.ofModRM_congr (h.mono (Nat.zero_le 2) (Nat.le_refl _))
  simp only [withOperand, form, operand]

theorem withMemory_congr {instr : ModRM → MemOperand → Instr}
    (h : AgreeOn code other 0 (withMemory code instr).length) :
    withMemory other instr = withMemory code instr := by
  cases inMemory : (modRM code).isRegister with
  | true =>
      simp only [withMemory, inMemory] at h
      have form := modRM_congr h (Nat.le_refl 2)
      simp only [withMemory, form, inMemory]
      rfl
  | false =>
      simp only [withMemory, inMemory] at h
      have form := modRM_congr h (Nat.le_add_right 2 _)
      have operand := MemOperand.ofModRM_congr inMemory (h.mono (Nat.zero_le 2) (Nat.le_refl _))
      simp only [withMemory, form, inMemory, operand]

theorem withImmediate_congr {w : Width} {instr : ModRM → Operand → UInt16 → Instr}
    (h : AgreeOn code other 0 (withImmediate code w instr).length) :
    withImmediate other w instr = withImmediate code w instr := by
  have start : 2 ≤ immediateAt (modRM code) := Nat.le_add_right 2 _
  have form := modRM_congr h (Nat.le_trans start (Nat.le_add_right _ _))
  have operand := Operand.ofModRM_congr (h.mono (Nat.zero_le 2) (Nat.le_add_right _ _))
  have value := h.immediate (Nat.zero_le (immediateAt (modRM code))) (Nat.le_refl _)
  simp only [withImmediate, form, operand, value]

theorem two_le_withMemory (code : Code) (instr : ModRM → MemOperand → Instr) :
    2 ≤ (withMemory code instr).length := by
  unfold withMemory
  dsimp only
  split <;> simp only [unknownForm, immediateAt] <;> omega

theorem two_le_unary (code : Code) (w : Width) : 2 ≤ (decodeUnary code w).length := by
  unfold decodeUnary
  split
  all_goals simp only [withImmediate, withOperand, immediateAt]; omega

theorem two_le_stepWord (code : Code) : 2 ≤ (decodeStepWord code).length := by
  unfold decodeStepWord
  split
  case h_4 | h_6 => exact two_le_withMemory code _
  all_goals simp only [withOperand, unknownForm, immediateAt]; omega

theorem two_le_stepByte (code : Code) : 2 ≤ (decodeStepByte code).length := by
  unfold decodeStepByte
  split
  all_goals simp only [withOperand, unknownForm, immediateAt]; omega

theorem two_le_movToSeg (v : Variant) (code : Code) : 2 ≤ (decodeMovToSeg v code).length := by
  unfold decodeMovToSeg
  split
  all_goals simp only [withOperand, unknownForm, immediateAt]; omega

theorem decodeUnary_congr {w : Width} (h : AgreeOn code other 0 (decodeUnary code w).length) :
    decodeUnary other w = decodeUnary code w := by
  have form := modRM_congr h (two_le_unary code w)
  revert h
  unfold decodeUnary
  rw [form]
  split <;> intro h
  case h_1 | h_2 => exact withImmediate_congr h
  all_goals exact withOperand_congr h

theorem decodeStepWord_congr (h : AgreeOn code other 0 (decodeStepWord code).length) :
    decodeStepWord other = decodeStepWord code := by
  have form := modRM_congr h (two_le_stepWord code)
  revert h
  unfold decodeStepWord
  rw [form]
  split <;> intro h
  case h_4 | h_6 => exact withMemory_congr h
  case h_8 => rfl
  all_goals exact withOperand_congr h

theorem decodeStepByte_congr (h : AgreeOn code other 0 (decodeStepByte code).length) :
    decodeStepByte other = decodeStepByte code := by
  have form := modRM_congr h (two_le_stepByte code)
  revert h
  unfold decodeStepByte
  rw [form]
  split <;> intro h
  case h_3 => rfl
  all_goals exact withOperand_congr h

theorem decodeMovToSeg_congr (h : AgreeOn code other 0 (decodeMovToSeg v code).length) :
    decodeMovToSeg v other = decodeMovToSeg v code := by
  have form := modRM_congr h (two_le_movToSeg v code)
  revert h
  unfold decodeMovToSeg
  rw [form]
  split <;> intro h
  · rfl
  · exact withOperand_congr h

/-- What a table entry makes of the bytes behind the opcode depends on no byte that it does not
consume. -/
theorem decode_congr (o : Opcode) (h : AgreeOn code other 0 (o.decode v code).length) :
    o.decode v other = o.decode v code := by
  cases o with
  | plain => rfl
  | aluToRm | aluToReg | testReg | xchgRm | movToRm | movToReg | movFromSeg | shift | escape =>
      exact withOperand_congr h
  | lea | loadFar | bound => exact withMemory_congr h
  | aluImm | aluSigned | shiftImm | mulWord | mulSigned => exact withImmediate_congr h
  | movToSeg => exact decodeMovToSeg_congr h
  | stepByte => exact decodeStepByte_congr h
  | stepWord => exact decodeStepWord_congr h
  | unary => exact decodeUnary_congr h
  | popRm =>
      have form : modRM other = modRM code := by
        refine modRM_congr h ?_
        simp only [decode]
        split <;> simp only [withOperand, unknownForm, immediateAt] <;> omega
      revert h
      simp only [decode, form]
      split <;> intro h
      · exact withOperand_congr h
      · rfl
  | movImm =>
      have form : modRM other = modRM code := by
        refine modRM_congr h ?_
        simp only [decode]
        split <;> simp only [withImmediate, unknownForm, immediateAt] <;> omega
      revert h
      simp only [decode, form]
      split <;> intro h
      · exact withImmediate_congr h
      · rfl
  | aluAcc | testAcc | movReg =>
      have value := h.immediate (Nat.zero_le 1) (Nat.le_refl _)
      simp only [decode, value]
  | movAccFrom | movAccTo | jumpNear | callNear | ret | retFar | pushWord =>
      have word := h.word (Nat.zero_le 1) (Nat.le_refl 3)
      simp only [decode, word]
  | aam | aad | jumpIf | jumpIfCxZero | loop | jumpShort | int | input | output | pushSigned =>
      have byte := h 1 (Nat.zero_le 1) (Nat.le_refl 2)
      simp only [decode, signedAt, byte]
  | jumpFar | callFar =>
      have offset := h.word (Nat.zero_le 1) (by decide : 1 + 2 ≤ 5)
      have segment := h.word (Nat.zero_le 3) (Nat.le_refl 5)
      simp only [decode, offset, segment]
  | enter =>
      have size := h.word (Nat.zero_le 1) (by decide : 1 + 2 ≤ 4)
      have level := h 3 (Nat.zero_le 3) (Nat.le_refl 4)
      simp only [decode, size, level]

theorem length_withOperand_le (code : Code) (instr : ModRM → Operand → Instr) :
    (withOperand code instr).length ≤ 6 :=
  Nat.le_trans (immediateAt_le _) (by decide)

theorem length_withMemory_le (code : Code) (instr : ModRM → MemOperand → Instr) :
    (withMemory code instr).length ≤ 6 := by
  unfold withMemory
  dsimp only
  split
  · decide
  · exact Nat.le_trans (immediateAt_le _) (by decide)

theorem length_withImmediate_le (code : Code) (w : Width)
    (instr : ModRM → Operand → UInt16 → Instr) : (withImmediate code w instr).length ≤ 6 :=
  Nat.add_le_add (immediateAt_le _) w.size_le

theorem one_le_length (v : Variant) (code : Code) (o : Opcode) : 1 ≤ (o.decode v code).length := by
  cases o with
  | movToSeg => exact Nat.le_trans (by decide) (two_le_movToSeg v code)
  | stepByte => exact Nat.le_trans (by decide) (two_le_stepByte code)
  | stepWord => exact Nat.le_trans (by decide) (two_le_stepWord code)
  | unary w => exact Nat.le_trans (by decide) (two_le_unary code w)
  | lea | loadFar | bound => exact Nat.le_trans (by decide) (two_le_withMemory code _)
  | popRm | movImm =>
      simp only [decode]
      split <;> simp only [withOperand, withImmediate, unknownForm, immediateAt] <;> omega
  | _ => simp only [decode, withOperand, withImmediate, immediateAt]; omega

theorem length_le (v : Variant) (code : Code) (o : Opcode) : (o.decode v code).length ≤ 6 := by
  cases o with
  | aluToRm | aluToReg | testReg | xchgRm | movToRm | movToReg | movFromSeg | shift | escape =>
      exact length_withOperand_le code _
  | lea | loadFar | bound => exact length_withMemory_le code _
  | aluImm | aluSigned | shiftImm | mulWord | mulSigned => exact length_withImmediate_le code _ _
  | movToSeg =>
      simp only [decode, decodeMovToSeg]
      split
      · decide
      · exact length_withOperand_le code _
  | stepByte =>
      simp only [decode, decodeStepByte]
      split
      case h_3 => decide
      all_goals exact length_withOperand_le code _
  | stepWord =>
      simp only [decode, decodeStepWord]
      split
      case h_4 | h_6 => exact length_withMemory_le code _
      case h_8 => decide
      all_goals exact length_withOperand_le code _
  | unary w =>
      simp only [decode, decodeUnary]
      split
      case h_1 | h_2 => exact length_withImmediate_le code w _
      all_goals exact length_withOperand_le code _
  | popRm =>
      simp only [decode]
      split
      · exact length_withOperand_le code _
      · decide
  | movImm w =>
      simp only [decode]
      split
      · exact length_withImmediate_le code w _
      · decide
  | aluAcc _ w | testAcc w | movReg w =>
      exact Nat.le_trans (Nat.add_le_add_left w.size_le 1) (by decide)
  | _ => simp only [decode]; decide

end Opcode

theorem length_decode_le (v : Variant) (code : Code) : (decode v code).length ≤ 6 :=
  Opcode.length_le v code _

/-- Decoding looks at no byte that the instruction does not consume. -/
theorem decode_congr {v : Variant} {code other : Code}
    (h : ∀ i < (decode v code).length, other i = code i) : decode v other = decode v code := by
  have agree : AgreeOn code other 0 (decode v code).length := fun i _ inside => h i inside
  have opcode : other 0 = code 0 := h 0 (Opcode.one_le_length v code _)
  rw [decode, opcode]
  exact Opcode.decode_congr _ agree

end RealMode
