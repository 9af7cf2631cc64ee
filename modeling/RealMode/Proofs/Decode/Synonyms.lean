import RealMode.Proofs.Decode.Length

/-!
Second encodings of an instruction. Most instructions with a ModRM byte have a shorter form for
registers or for the accumulator, some opcodes and some reg fields mean the same as others, and a
shift by one place can be written with any of the three counts. What both encodings are decoded to
is one instruction or two that ought to have one effect.
-/

namespace RealMode

open Code (AgreeOn)
open Opcode (modRM immediateAt)

/-- Opcodes come in pairs, the first for bytes and the next for words. -/
def Width.opcode (w : Width) (first : UInt8) : UInt8 :=
  match w with
  | .byte => first
  | .word => first + 1

/-- Eight opcodes in a row name a register each. -/
def registerOpcode (first : UInt8) (r : Fin 8) : UInt8 :=
  first + .ofNat r.val

/-- Eight opcodes belong to an ALU operation. Of its columns the first two have the result in the
ModRM operand, the next two in a register, and two have an immediate for the accumulator. -/
def aluOpcode (op : Fin 8) (w : Width) (column : UInt8) : UInt8 :=
  w.opcode (8 * .ofNat op.val + column)

/-- B0 to BF. -/
def moveOpcode (w : Width) (r : Fin 8) : UInt8 :=
  match w with
  | .byte => registerOpcode 0xB0 r
  | .word => registerOpcode 0xB8 r

namespace ShiftCount

/-- The code is that of a shift with this count; only the 80186 has immediate counts. -/
def encodedBy (v : Variant) (code : Code) (w : Width) : ShiftCount → Prop
  | .one => code 0 = w.opcode 0xD0
  | .cl => code 0 = w.opcode 0xD2
  | .immediate n => v = .i80186 ∧ code 0 = w.opcode 0xC0 ∧ code (immediateAt (modRM code)) = n

/-- The count is one, with this value in CL. -/
def isOne (cl : UInt8) : ShiftCount → Prop
  | .one => True
  | .cl => cl = 1
  | .immediate n => n = 1

end ShiftCount

/-- Instructions that ought to do the same if CL has this value. The first has a ModRM operand. -/
inductive Instr.Equivalent (cl : UInt8) : Instr → Instr → Prop
  | aluImm (op : AluOp) (w : Width) (rm : Operand) (value : UInt16) :
      Equivalent cl (.aluImm op w rm value) (.aluImm op w rm value)
  | accumulator (op : AluOp) (w : Width) (value : UInt16) :
      Equivalent cl (.aluImm op w (.reg accumulator) value) (.aluAcc op w value)
  | moveImmediate (w : Width) (r : Fin 8) (value : UInt16) :
      Equivalent cl (.movImm w (.reg r) value) (.movRegImm w r value)
  | registers (op : AluOp) (w : Width) (x y : Fin 8) :
      Equivalent cl (.aluToRm op w (.reg x) y) (.aluToReg op w x (.reg y))
  | increment (r : Fin 8) : Equivalent cl (.incRm .word (.reg r)) (.incReg r)
  | decrement (r : Fin 8) : Equivalent cl (.decRm .word (.reg r)) (.decReg r)
  | exchange (r : Fin 8) : Equivalent cl (.xchgRm .word (.reg r) 0) (.xchgAcc r)
  | exchangeBack (r : Fin 8) (other : r ≠ 0) :
      Equivalent cl (.xchgRm .word (.reg 0) r) (.xchgAcc r)
  | load (w : Width) (offset : UInt16) :
      Equivalent cl (.movToReg w 0 (.mem (.direct offset))) (.movAccFrom w offset)
  | store (w : Width) (offset : UInt16) :
      Equivalent cl (.movToRm w (.mem (.direct offset)) 0) (.movAccTo w offset)
  | test (w : Width) (value : UInt16) :
      Equivalent cl (.testImm w (.reg 0) value) (.testAcc w value)
  | shiftLeft (w : Width) (rm : Operand) (count : ShiftCount) :
      Equivalent cl (.shift .shl w rm count) (.shift .sal w rm count)
  | shiftOnce (op : ShiftOp) (w : Width) (rm : Operand) {x y : ShiftCount} (first : x.isOne cl)
      (second : y.isOne cl) : Equivalent cl (.shift op w rm x) (.shift op w rm y)
  | push (r : Fin 8) (other : Reg16.ofIndex r ≠ .sp) :
      Equivalent cl (.pushRm (.reg r)) (.pushReg r)
  | pop (r : Fin 8) : Equivalent cl (.popRm (.reg r)) (.popReg r)

/-- Two encodings of one instruction; the first is the one with a ModRM byte, or either if both have
one. A ModRM byte of mode 3 names two registers. -/
inductive Synonyms (v : Variant) (cl : UInt8) (a b : Code) : Prop
  /-- The operands of an ALU operation the one way round and the other. -/
  | registers (op : Fin 8) (w : Width) (x y : Fin 8) (opcode : a 0 = aluOpcode op w 0)
      (form : modRM a = ⟨3, y, x⟩) (other : b 0 = aluOpcode op w 2) (back : modRM b = ⟨3, x, y⟩)
  | accumulator (op : Fin 8) (w : Width) (opcode : a 0 = w.opcode 0x80)
      (form : modRM a = ⟨3, op, 0⟩) (short : b 0 = aluOpcode op w 4)
      (value : b.immediate w 1 = a.immediate w 2)
  | byteAgain (opcode : a 0 = 0x80) (again : b 0 = 0x82)
      (rest : AgreeOn a b 1 (decode v a).length)
  /-- A word that fits into a byte. -/
  | signExtended (opcode : a 0 = 0x81) (short : b 0 = 0x83)
      (rest : AgreeOn a b 1 (immediateAt (modRM a)))
      (value : a.word (immediateAt (modRM a)) = signExtend (b (immediateAt (modRM a))))
  | increment (r : Fin 8) (opcode : a 0 = 0xFF) (form : modRM a = ⟨3, 0, r⟩)
      (short : b 0 = registerOpcode 0x40 r)
  | decrement (r : Fin 8) (opcode : a 0 = 0xFF) (form : modRM a = ⟨3, 1, r⟩)
      (short : b 0 = registerOpcode 0x48 r)
  | exchange (r : Fin 8) (notNop : r ≠ 0) (opcode : a 0 = 0x87)
      (form : modRM a = ⟨3, 0, r⟩ ∨ modRM a = ⟨3, r, 0⟩) (short : b 0 = registerOpcode 0x90 r)
  | moveImmediate (w : Width) (r : Fin 8) (opcode : a 0 = w.opcode 0xC6)
      (form : modRM a = ⟨3, 0, r⟩) (short : b 0 = moveOpcode w r)
      (value : b.immediate w 1 = a.immediate w 2)
  | load (w : Width) (opcode : a 0 = w.opcode 0x8A) (form : modRM a = ⟨0, 0, 6⟩)
      (short : b 0 = w.opcode 0xA0) (offset : b.word 1 = a.word 2)
  | store (w : Width) (opcode : a 0 = w.opcode 0x88) (form : modRM a = ⟨0, 0, 6⟩)
      (short : b 0 = w.opcode 0xA2) (offset : b.word 1 = a.word 2)
  | test (w : Width) (opcode : a 0 = w.opcode 0xF6)
      (form : modRM a = ⟨3, 0, 0⟩ ∨ modRM a = ⟨3, 1, 0⟩) (short : b 0 = w.opcode 0xA8)
      (value : b.immediate w 1 = a.immediate w 2)
  /-- The reg fields 4 and 6. -/
  | shiftLeft (w : Width) (count : ShiftCount) (first : count.encodedBy v a w)
      (second : count.encodedBy v b w) (form : (modRM a).reg = 4)
      (again : modRM b = { modRM a with reg := 6 }) (rest : AgreeOn a b 2 (immediateAt (modRM a)))
  | shiftOnce (w : Width) (x y : ShiftCount) (first : x.encodedBy v a w)
      (second : y.encodedBy v b w) (one : x.isOne cl) (alsoOne : y.isOne cl)
      (rest : AgreeOn a b 1 (immediateAt (modRM a)))

namespace Opcode

-- Where synonyms lie in the map of opcodes, entry by entry.

structure AluRow (v : Variant) (op : Fin 8) (w : Width) : Prop where
  toRm : ofByte v (aluOpcode op w 0) = aluToRm (.ofIndex op) w
  toReg : ofByte v (aluOpcode op w 2) = aluToReg (.ofIndex op) w
  acc : ofByte v (aluOpcode op w 4) = aluAcc (.ofIndex op) w

structure ByRegister (v : Variant) (r : Fin 8) : Prop where
  incReg : ofByte v (registerOpcode 0x40 r) = plain (.incReg r)
  decReg : ofByte v (registerOpcode 0x48 r) = plain (.decReg r)
  pushReg : ofByte v (registerOpcode 0x50 r) = plain (.pushReg r)
  popReg : ofByte v (registerOpcode 0x58 r) = plain (.popReg r)
  xchgAcc : r ≠ 0 → ofByte v (registerOpcode 0x90 r) = plain (.xchgAcc r)
  movReg (w : Width) : ofByte v (moveOpcode w r) = movReg w r

structure ByWidth (v : Variant) (w : Width) : Prop where
  aluImm : ofByte v (w.opcode 0x80) = aluImm w
  movToRm : ofByte v (w.opcode 0x88) = movToRm w
  movToReg : ofByte v (w.opcode 0x8A) = movToReg w
  movAccFrom : ofByte v (w.opcode 0xA0) = movAccFrom w
  movAccTo : ofByte v (w.opcode 0xA2) = movAccTo w
  testAcc : ofByte v (w.opcode 0xA8) = testAcc w
  movImm : ofByte v (w.opcode 0xC6) = movImm w
  shiftOne : ofByte v (w.opcode 0xD0) = shift w .one
  shiftCl : ofByte v (w.opcode 0xD2) = shift w .cl
  unary : ofByte v (w.opcode 0xF6) = unary w

theorem aluRow (v : Variant) (op : Fin 8) (w : Width) : AluRow v op w := by
  constructor <;> cases v <;> cases w <;> revert op <;> decide

theorem byRegister (v : Variant) (r : Fin 8) : ByRegister v r := by
  constructor
  case movReg => intro w; cases v <;> cases w <;> revert r <;> decide
  all_goals cases v <;> revert r <;> decide

theorem byWidth (v : Variant) (w : Width) : ByWidth v w := by
  cases v <;> cases w <;> constructor <;> decide

/-- The single opcodes among the synonyms. -/
structure Single (v : Variant) : Prop where
  aluAgain : ofByte v 0x82 = aluImm .byte
  aluSigned : ofByte v 0x83 = aluSigned
  xchgRm : ofByte v 0x87 = xchgRm .word
  popRm : ofByte v 0x8F = popRm
  stepWord : ofByte v 0xFF = stepWord

theorem single (v : Variant) : Single v := by
  cases v <;> constructor <;> decide

end Opcode

open Opcode

variable {v : Variant} {cl : UInt8} {a b : Code}

theorem instr_of_opcode {code : Code} {byte : UInt8} {o : Opcode} (opcode : code 0 = byte)
    (entry : ofByte v byte = o) : (decode v code).instr = (o.decode v code).instr := by
  rw [decode, opcode, entry]

/-- Whatever the opcode, the count ends up in the instruction. -/
theorem instr_shift {w : Width} {count : ShiftCount} (encoded : count.encodedBy v a w) :
    (decode v a).instr =
      .shift (.ofIndex (modRM a).reg) w (.ofModRM (modRM a) a) count := by
  cases count with
  | one => exact instr_of_opcode encoded (byWidth v w).shiftOne
  | cl => exact instr_of_opcode encoded (byWidth v w).shiftCl
  | immediate n =>
    obtain ⟨rfl, opcode, value⟩ := encoded
    have entry : ofByte .i80186 (w.opcode 0xC0) = .shiftImm w := by
      cases w <;> decide
    rw [instr_of_opcode opcode entry, ← value]
    simp only [Opcode.decode, withImmediate, Code.immediate, UInt8.toUInt8_toUInt16]

/-- Bytes that agree behind the opcode name the same operand. -/
theorem rm_of_rest {stop : Nat} (rest : AgreeOn a b 1 stop) (enough : immediateAt (modRM a) ≤ stop) :
    modRM b = modRM a ∧ Operand.ofModRM (modRM a) b = Operand.ofModRM (modRM a) a := by
  have start : 2 ≤ immediateAt (modRM a) := Nat.le_add_right 2 _
  have second : b 1 = a 1 := rest 1 (Nat.le_refl 1) (Nat.le_trans start enough)
  exact ⟨congrArg ModRM.ofByte second,
    Operand.ofModRM_congr (rest.mono (Nat.le_succ 1) enough)⟩

/-- Synonyms are decoded to instructions that ought to do the same. -/
theorem Synonyms.equivalent (h : Synonyms v cl a b) :
    Instr.Equivalent cl (decode v a).instr (decode v b).instr := by
  cases h with
  | registers op w x y opcode form other back =>
    rw [instr_of_opcode opcode (aluRow v op w).toRm, instr_of_opcode other (aluRow v op w).toReg]
    simp only [Opcode.decode, withOperand, form, back]
    exact .registers _ w x y
  | accumulator op w opcode form short value =>
    rw [instr_of_opcode opcode (byWidth v w).aluImm, instr_of_opcode short (aluRow v op w).acc]
    simp only [Opcode.decode, withImmediate, form, value]
    exact .accumulator _ w _
  | byteAgain opcode again rest =>
    have length : (decode v a).length = immediateAt (modRM a) + 1 := by
      rw [decode, opcode, show ofByte v 0x80 = _ from (byWidth v .byte).aluImm]
      rfl
    rw [length] at rest
    obtain ⟨form, operand⟩ := rm_of_rest rest (Nat.le_succ _)
    have start : 1 ≤ immediateAt (modRM a) := Nat.le_trans (by decide) (Nat.le_add_right 2 _)
    have value := rest.immediate (w := .byte) start (Nat.le_refl _)
    rw [instr_of_opcode opcode (byWidth v .byte).aluImm, instr_of_opcode again (single v).aluAgain]
    simp only [Opcode.decode, withImmediate, form, operand, value]
    exact .aluImm _ .byte _ _
  | signExtended opcode short rest value =>
    obtain ⟨form, operand⟩ := rm_of_rest rest (Nat.le_refl _)
    rw [instr_of_opcode opcode (byWidth v .word).aluImm,
      instr_of_opcode short (single v).aluSigned]
    simp only [Opcode.decode, withImmediate, form, operand, Code.immediate, value,
      UInt8.toUInt8_toUInt16]
    exact .aluImm _ .word _ _
  | increment r opcode form short =>
    rw [instr_of_opcode opcode (single v).stepWord, instr_of_opcode short (byRegister v r).incReg]
    simp only [Opcode.decode, decodeStepWord, withOperand, form]
    exact .increment r
  | decrement r opcode form short =>
    rw [instr_of_opcode opcode (single v).stepWord, instr_of_opcode short (byRegister v r).decReg]
    simp only [Opcode.decode, decodeStepWord, withOperand, form]
    exact .decrement r
  | exchange r notNop opcode form short =>
    rw [instr_of_opcode opcode (single v).xchgRm,
      instr_of_opcode short ((byRegister v r).xchgAcc notNop)]
    rcases form with form | form
    · simp only [Opcode.decode, withOperand, form]
      exact .exchange r
    · simp only [Opcode.decode, withOperand, form]
      exact .exchangeBack r notNop
  | moveImmediate w r opcode form short value =>
    rw [instr_of_opcode opcode (byWidth v w).movImm,
      instr_of_opcode short ((byRegister v r).movReg w)]
    simp only [Opcode.decode, withImmediate, form, value]
    exact .moveImmediate w r _
  | load w opcode form short offset =>
    rw [instr_of_opcode opcode (byWidth v w).movToReg,
      instr_of_opcode short (byWidth v w).movAccFrom]
    simp only [Opcode.decode, withOperand, form, offset]
    exact .load w _
  | store w opcode form short offset =>
    rw [instr_of_opcode opcode (byWidth v w).movToRm, instr_of_opcode short (byWidth v w).movAccTo]
    simp only [Opcode.decode, withOperand, form, offset]
    exact .store w _
  | test w opcode form short value =>
    rw [instr_of_opcode opcode (byWidth v w).unary, instr_of_opcode short (byWidth v w).testAcc]
    rcases form with form | form <;>
    · simp only [Opcode.decode, decodeUnary, withImmediate, form, value]
      exact .test w _
  | shiftLeft w count first second form again rest =>
    have operand : Operand.ofModRM { modRM a with reg := 6 } b = Operand.ofModRM (modRM a) a :=
      Operand.ofModRM_congr rest
    rw [instr_shift first, instr_shift second, again, form, operand]
    exact .shiftLeft w _ count
  | shiftOnce w x y first second one alsoOne rest =>
    obtain ⟨form, operand⟩ := rm_of_rest rest (Nat.le_refl _)
    rw [instr_shift first, instr_shift second, form, operand]
    exact .shiftOnce _ w _ one alsoOne

end RealMode
