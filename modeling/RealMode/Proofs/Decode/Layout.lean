import RealMode.Proofs.Decode.Reading

/-!
The order of the bytes of an instruction: opcode, ModRM byte, displacement, immediates. In this
order they are read, and each is there just if opcode and ModRM byte announce it. Of an encoding
without a meaning no more is read than shows that it has none.
-/

namespace RealMode

namespace Opcode

/-- The immediates of an opcode without a ModRM byte. -/
def immediates : Opcode → List Width
  | aluAcc _ w | testAcc w | movReg w _ => [w]
  | movAccFrom _ | movAccTo _ | jumpNear | callNear | ret | retFar | pushWord => [.word]
  | aam | aad | jumpIf _ | jumpIfCxZero | loop _ | jumpShort => [.byte]
  | int | input _ | output _ | pushSigned => [.byte]
  | jumpFar | callFar => [.word, .word]
  | enter => [.word, .byte]
  | _ => []

/-- The bytes of all immediates. -/
def immediateLength (m : ModRM) (o : Opcode) : Nat :=
  o.immediates.foldl (· + ·.size) (o.immediateSize m)

/-- What the bytes behind a ModRM byte are for. -/
def partsBehindModRM (m : ModRM) (immediate : Nat) : List Part :=
  .replicate m.displacementLength .displacement ++ .replicate immediate .immediate

theorem partsBehindModRM_zero (m : ModRM) :
    partsBehindModRM m 0 = .replicate m.displacementLength .displacement :=
  List.append_nil _

/-- What the bytes behind the opcode are for. -/
def partsBehind (m : ModRM) (o : Opcode) : List Part :=
  if o.hasModRM then .modRM :: partsBehindModRM m (o.immediateLength m)
  else .replicate (o.immediateLength m) .immediate

/-- What the bytes of an instruction are for. -/
def layout (m : ModRM) (o : Opcode) : List Part :=
  .opcode :: o.partsBehind m

theorem length_layout (m : ModRM) (o : Opcode) :
    (o.layout m).length =
      1 + (if o.hasModRM then 1 + m.displacementLength else 0) + o.immediateLength m := by
  rw [layout, partsBehind]
  split
  · simp only [partsBehindModRM, List.length_cons, List.length_append, List.length_replicate]
    omega
  · simp only [List.length_cons, List.length_replicate]
    omega

end Opcode

namespace Reading

open Opcode (partsBehindModRM partsBehindModRM_zero)

variable {code : Code} {v : Variant} {r : Reading Instr}

theorem reads_withOperand {instr : ModRM → Operand → Instr}
    (same : r = withOperand (Opcode.modRM code) (instr (Opcode.modRM code))) :
    Reads r code 2 (Opcode.withOperand code instr) (partsBehindModRM (Opcode.modRM code) 0) := by
  rw [same, partsBehindModRM_zero]
  refine .whole (takes_operand _).map ?_
  rw [List.length_replicate]
  rfl

theorem reads_withMemory {instr : ModRM → MemOperand → Instr}
    (same : r = withMemory (Opcode.modRM code) (instr (Opcode.modRM code))) :
    Reads r code 2 (Opcode.withMemory code instr) (partsBehindModRM (Opcode.modRM code) 0) := by
  rw [same, partsBehindModRM_zero, withMemory, Opcode.withMemory]
  split
  next => exact reads_unknownForm
  next inMemory =>
    refine .whole (takes_memOperand _ (Bool.eq_false_iff.2 inMemory)).map ?_
    rw [List.length_replicate]
    rfl

theorem reads_withImmediate {w : Width} {instr : ModRM → Operand → UInt16 → Instr}
    (same : r = withImmediate (Opcode.modRM code) w (instr (Opcode.modRM code))) :
    Reads r code 2 (Opcode.withImmediate code w instr)
      (partsBehindModRM (Opcode.modRM code) w.size) := by
  rw [same]
  refine .whole ((takes_operand _).bind (Takes.map ?_)) ?_
  · rw [List.length_replicate]
    exact takes_immediate w
  · rw [partsBehindModRM, List.length_append, List.length_replicate, List.length_replicate,
      ← Nat.add_assoc]
    rfl

theorem reads_unary (w : Width) :
    Reads (unary (Opcode.modRM code) w) code 2 (Opcode.decodeUnary code w)
      (partsBehindModRM (Opcode.modRM code)
        ((Opcode.unary w).immediateLength (Opcode.modRM code))) := by
  unfold unary Opcode.decodeUnary Opcode.immediateLength Opcode.immediateSize
  match (Opcode.modRM code).reg with
  | 0 | 1 => exact reads_withImmediate rfl
  | 2 | 3 | 4 | 5 | 6 | 7 => exact reads_withOperand rfl

theorem reads_stepWord :
    Reads (stepWord (Opcode.modRM code)) code 2 (Opcode.decodeStepWord code)
      (partsBehindModRM (Opcode.modRM code) 0) := by
  unfold stepWord Opcode.decodeStepWord
  match (Opcode.modRM code).reg with
  | 0 | 1 | 2 | 4 | 6 => exact reads_withOperand rfl
  | 3 | 5 => exact reads_withMemory rfl
  | 7 => exact reads_unknownForm

theorem reads_stepByte :
    Reads (stepByte (Opcode.modRM code)) code 2 (Opcode.decodeStepByte code)
      (partsBehindModRM (Opcode.modRM code) 0) := by
  unfold stepByte Opcode.decodeStepByte
  match (Opcode.modRM code).reg with
  | 0 | 1 => exact reads_withOperand rfl
  | 2 | 3 | 4 | 5 | 6 | 7 => exact reads_unknownForm

theorem reads_movToSeg :
    Reads (movToSeg v (Opcode.modRM code)) code 2 (Opcode.decodeMovToSeg v code)
      (partsBehindModRM (Opcode.modRM code) 0) := by
  unfold movToSeg Opcode.decodeMovToSeg
  split
  · exact reads_unknownForm
  · exact reads_withOperand rfl

theorem Reads.behindModRM {o : Opcode} {f : ModRM → Reading Instr} {d : Decoded}
    (form : o.hasModRM = true)
    (rest : Reads (f (Opcode.modRM code)) code 2 d
      (partsBehindModRM (Opcode.modRM code) (o.immediateLength (Opcode.modRM code)))) :
    Reads (modRM >>= f) code 1 d (o.partsBehind (Opcode.modRM code)) := by
  rw [Opcode.partsBehind, if_pos form]
  exact takes_modRM.reads rest

theorem reads_ofOpcode (o : Opcode) :
    Reads (ofOpcode v o) code 1 (o.decode v code) (o.partsBehind (Opcode.modRM code)) := by
  cases o with
  | plain instr => exact .whole (takes_pure instr) rfl
  | aluToRm | aluToReg | testReg | xchgRm | movToRm | movToReg | movFromSeg | shift | escape =>
      refine .behindModRM rfl ?_
      rw [Opcode.decode]
      exact reads_withOperand rfl
  | lea | loadFar | bound =>
      refine .behindModRM rfl ?_
      rw [Opcode.decode]
      exact reads_withMemory rfl
  | aluImm | aluSigned | shiftImm | mulWord | mulSigned =>
      refine .behindModRM rfl ?_
      rw [Opcode.decode]
      exact reads_withImmediate rfl
  | movToSeg => exact .behindModRM rfl reads_movToSeg
  | stepByte => exact .behindModRM rfl reads_stepByte
  | stepWord => exact .behindModRM rfl reads_stepWord
  | unary w => exact .behindModRM rfl (reads_unary w)
  | popRm =>
      refine .behindModRM rfl ?_
      rw [Opcode.decode]
      split
      · exact reads_withOperand rfl
      · exact reads_unknownForm
  | movImm =>
      refine .behindModRM rfl ?_
      rw [Opcode.decode]
      split
      · exact reads_withImmediate rfl
      · exact reads_unknownForm
  | aluAcc _ w | testAcc w | movReg w =>
      cases w with
      | byte => exact .whole (takes_immediate .byte).map rfl
      | word => exact .whole (takes_immediate .word).map rfl
  | movAccFrom | movAccTo | jumpNear | callNear | ret | retFar | pushWord =>
      exact .whole (takes_word .immediate).map rfl
  | aam | aad | jumpIf | jumpIfCxZero | loop | jumpShort | int | input | output | pushSigned =>
      exact .whole (takes_byte .immediate).map rfl
  | jumpFar | callFar =>
      exact .whole ((takes_word .immediate).bind (takes_word .immediate).map) rfl
  | enter => exact .whole ((takes_word .immediate).bind (takes_byte .immediate).map) rfl

/-- The instruction that is decoded is the one that is read. -/
theorem reads_instr :
    Reads (instr v) code 0 (decode v code)
      ((Opcode.ofByte v (code 0)).layout (Opcode.modRM code)) :=
  (takes_byte .opcode).reads (reads_ofOpcode _)

end Reading
end RealMode
