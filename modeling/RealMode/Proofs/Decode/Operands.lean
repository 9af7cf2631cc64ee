import RealMode.Proofs.Decode.Length

/-!
What the ModRM byte of an instruction announces: how many bytes follow it and which operand they
name. Every instruction with such a byte has that operand, unless the byte shows the encoding to
have no meaning.
-/

namespace RealMode

namespace Instr

/-- The operand that the ModRM byte of an instruction names. -/
def operand? : Instr → Option Operand
  | aluToRm _ _ rm _ | aluToReg _ _ _ rm | aluImm _ _ rm _ => some rm
  | testReg _ rm _ | testImm _ rm _ | incRm _ rm | decRm _ rm => some rm
  | complement _ rm | negate _ rm | mul _ _ rm | div _ _ rm | mulImm _ rm _ => some rm
  | shift _ _ rm _ | movToRm _ rm _ | movToReg _ _ rm | movImm _ rm _ => some rm
  | movFromSeg rm _ | movToSeg _ rm | xchgRm _ rm _ | pushRm rm | popRm rm => some rm
  | jumpRm rm | callRm rm | escape rm => some rm
  | lea _ m | loadFar _ _ m | jumpFarMem m | callFarMem m | bound _ m => some (.mem m)
  | _ => none

end Instr

namespace Opcode

/-- Whether a ModRM byte follows. -/
def hasModRM : Opcode → Bool
  | aluToRm _ _ | aluToReg _ _ | testReg _ | xchgRm _ | movToRm _ | movToReg _ | movFromSeg => true
  | movToSeg | lea | loadFar _ | popRm | shift _ _ | stepByte | stepWord | bound | escape => true
  | aluImm _ | aluSigned | movImm _ | shiftImm _ | unary _ | mulWord | mulSigned => true
  | _ => false

/-- The bytes of the immediate behind the displacement. -/
def immediateSize (m : ModRM) : Opcode → Nat
  | aluImm w | movImm w => w.size
  | unary w => if m.reg.val < 2 then w.size else 0
  | aluSigned | shiftImm _ | mulSigned => 1
  | mulWord => 2
  | _ => 0

/-- What the ModRM byte announces is what is decoded. -/
structure Announced (code : Code) (immediate : Nat) (d : Decoded) : Prop where
  length : d.length = 2 + (modRM code).displacementLength + immediate
  operand : d.instr.operand? = some (.ofModRM (modRM code) code)

variable {code : Code}

theorem announced_withOperand {instr : ModRM → Operand → Instr}
    (names : ∀ m rm, (instr m rm).operand? = some rm) :
    Announced code 0 (withOperand code instr) :=
  ⟨rfl, names _ _⟩

theorem announced_withImmediate {w : Width} {instr : ModRM → Operand → UInt16 → Instr}
    (names : ∀ m rm value, (instr m rm value).operand? = some rm) :
    Announced code w.size (withImmediate code w instr) :=
  ⟨rfl, names _ _ _⟩

theorem announced_withMemory {instr : ModRM → MemOperand → Instr}
    (names : ∀ m mem, (instr m mem).operand? = some (.mem mem))
    (known : (withMemory code instr).instr ≠ .unknown) :
    Announced code 0 (withMemory code instr) := by
  cases inMemory : (modRM code).isRegister with
  | true =>
      refine absurd ?_ known
      simp only [withMemory, inMemory]
      rfl
  | false =>
      have form : withMemory code instr =
          ⟨instr (modRM code) (.ofModRM (modRM code) code), immediateAt (modRM code)⟩ := by
        simp only [withMemory, inMemory]
        rfl
      have operand : Operand.ofModRM (modRM code) code = .mem (.ofModRM (modRM code) code) := by
        rw [Operand.ofModRM, inMemory]
        rfl
      rw [form]
      exact ⟨rfl, by rw [operand, names]⟩

theorem announced_unary (w : Width) :
    Announced code (immediateSize (modRM code) (.unary w)) (decodeUnary code w) := by
  unfold decodeUnary
  split <;> rename_i row <;> simp only [immediateSize, row]
  case h_1 | h_2 => exact announced_withImmediate fun _ _ _ => rfl
  all_goals exact announced_withOperand fun _ _ => rfl

theorem announced_stepWord (known : (decodeStepWord code).instr ≠ .unknown) :
    Announced code 0 (decodeStepWord code) := by
  revert known
  unfold decodeStepWord
  split <;> intro known
  case h_4 | h_6 => exact announced_withMemory (fun _ _ => rfl) known
  case h_8 => exact absurd rfl known
  all_goals exact announced_withOperand fun _ _ => rfl

theorem announced_stepByte (known : (decodeStepByte code).instr ≠ .unknown) :
    Announced code 0 (decodeStepByte code) := by
  revert known
  unfold decodeStepByte
  split <;> intro known
  case h_3 => exact absurd rfl known
  all_goals exact announced_withOperand fun _ _ => rfl

theorem announced_movToSeg {v : Variant} (known : (decodeMovToSeg v code).instr ≠ .unknown) :
    Announced code 0 (decodeMovToSeg v code) := by
  revert known
  unfold decodeMovToSeg
  split <;> intro known
  · exact absurd rfl known
  · exact announced_withOperand fun _ _ => rfl

/-- Opcode, ModRM byte, displacement and immediate are all that is consumed. -/
theorem announced_decode {v : Variant} {o : Opcode} (form : o.hasModRM = true)
    (known : (o.decode v code).instr ≠ .unknown) :
    Announced code (o.immediateSize (modRM code)) (o.decode v code) := by
  cases o with
  | aluToRm | aluToReg | testReg | xchgRm | movToRm | movToReg | movFromSeg | shift | escape =>
      rw [decode]
      exact announced_withOperand fun _ _ => rfl
  | lea | loadFar | bound => exact announced_withMemory (fun _ _ => rfl) known
  | aluImm w =>
      rw [decode]
      exact announced_withImmediate fun _ _ _ => rfl
  | aluSigned | shiftImm | mulSigned =>
      rw [decode]
      exact announced_withImmediate (w := .byte) fun _ _ _ => rfl
  | mulWord =>
      rw [decode]
      exact announced_withImmediate (w := .word) fun _ _ _ => rfl
  | movToSeg => exact announced_movToSeg known
  | stepByte => exact announced_stepByte known
  | stepWord => exact announced_stepWord known
  | unary w => exact announced_unary w
  | popRm =>
      revert known
      simp only [decode]
      split <;> intro known
      · exact announced_withOperand fun _ _ => rfl
      · exact absurd rfl known
  | movImm =>
      revert known
      simp only [decode]
      split <;> intro known
      · exact announced_withImmediate fun _ _ _ => rfl
      · exact absurd rfl known
  | _ => cases form

end Opcode
end RealMode
