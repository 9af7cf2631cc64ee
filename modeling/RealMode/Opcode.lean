import RealMode.Instr

/-!
The map of the first instruction byte. An opcode is either a whole instruction or says how to read
the bytes behind it: whether there is a ModRM byte, how long an immediate is, and what to make of
them. The 8086 has a meaning for nearly every byte; the 80186 puts new instructions in the place of
its duplicates and drops the rest.
-/

namespace RealMode

inductive Variant where
  | i8086
  | i80186
  deriving DecidableEq

namespace Variant

def name : Variant → String
  | i8086 => "8086"
  | i80186 => "80186"

def ofName? (s : String) : Option Variant :=
  if s = "8086" then some i8086 else if s = "80186" then some i80186 else none

/-- What is said of a name that belongs to no variant. -/
def notFoundMessage : String := "Matching variant not found"

end Variant

inductive Opcode where
  | plain (instr : Instr)
  -- a ModRM byte follows
  | aluToRm (op : AluOp) (w : Width)
  | aluToReg (op : AluOp) (w : Width)
  | testReg (w : Width)
  | xchgRm (w : Width)
  | movToRm (w : Width)
  | movToReg (w : Width)
  | movFromSeg
  | movToSeg
  | lea
  | loadFar (seg : SegReg)
  | popRm
  | shift (w : Width) (count : ShiftCount)
  | stepByte
  /-- INC, DEC, CALL, JMP and PUSH of a word. -/
  | stepWord
  | bound
  | escape
  -- a ModRM byte and an immediate follow
  | aluImm (w : Width)
  /-- An immediate byte, sign-extended to a word. -/
  | aluSigned
  | movImm (w : Width)
  | shiftImm (w : Width)
  /-- TEST, NOT, NEG, MUL, IMUL, DIV and IDIV; only TEST has an immediate. -/
  | unary (w : Width)
  | mulWord
  | mulSigned
  -- an immediate follows
  | aluAcc (op : AluOp) (w : Width)
  | testAcc (w : Width)
  | movReg (w : Width) (reg : Fin 8)
  | movAccFrom (w : Width)
  | movAccTo (w : Width)
  | aam
  | aad
  | jumpIf (code : UInt8)
  | jumpIfCxZero
  | loop (test : LoopTest)
  | jumpShort
  | jumpNear
  | jumpFar
  | callNear
  | callFar
  | ret
  | retFar
  | int
  | input (w : Width)
  | output (w : Width)
  | pushWord
  | pushSigned
  | enter
  deriving DecidableEq

namespace Opcode

/-- Bits 0 to 2 of an opcode: a register, or the number within a row of eight. -/
def low (b : UInt8) : Fin 8 := lowThree b.toNat

def middle (b : UInt8) : Fin 8 := lowThree (b.toNat / 8)

/-- Bits 3 and 4, where an opcode names a segment register. -/
def segment (b : UInt8) : SegReg := .ofIndex (lowTwo (b.toNat / 8))

/-- 00 to 3F: eight rows, one for each operation. The last two columns hold segment registers,
segment overrides and decimal adjustments. -/
def ofAluRow (b : UInt8) : Opcode :=
  let op := AluOp.ofIndex (middle b)
  match low b with
  | 0 => aluToRm op .byte
  | 1 => aluToRm op .word
  | 2 => aluToReg op .byte
  | 3 => aluToReg op .word
  | 4 => aluAcc op .byte
  | 5 => aluAcc op .word
  | 6 => plain (if b < 0x20 then .pushSeg (segment b) else .segmentOverride (segment b))
  | 7 =>
    plain <| match op with
      | .add | .or | .adc | .sbb => .popSeg (segment b)
      | .and => .decimal .daa
      | .sub => .decimal .das
      | .xor => .decimal .aaa
      | .cmp => .decimal .aas

/-- 80 to 8F. -/
def ofMoveRow (b : UInt8) : Opcode :=
  let w := Width.ofOpcode b
  if b < 0x83 then aluImm w
  else if b = 0x83 then aluSigned
  else if b < 0x86 then testReg w
  else if b < 0x88 then xchgRm w
  else if b < 0x8A then movToRm w
  else if b < 0x8C then movToReg w
  else if b = 0x8C then movFromSeg
  else if b = 0x8D then lea
  else if b = 0x8E then movToSeg
  else popRm

/-- 98 to 9F. -/
def ofConvertRow (b : UInt8) : Opcode :=
  match low b with
  | 0 => plain .cbw
  | 1 => plain .cwd
  | 2 => callFar
  | 3 => plain .wait
  | 4 => plain .pushFlags
  | 5 => plain .popFlags
  | 6 => plain .sahf
  | 7 => plain .lahf

/-- A0 to AF. -/
def ofStringRow (b : UInt8) : Opcode :=
  let w := Width.ofOpcode b
  if b < 0xA2 then movAccFrom w
  else if b < 0xA4 then movAccTo w
  else if b < 0xA6 then plain (.string .movs w)
  else if b < 0xA8 then plain (.string .cmps w)
  else if b < 0xAA then testAcc w
  else if b < 0xAC then plain (.string .stos w)
  else if b < 0xAE then plain (.string .lods w)
  else plain (.string .scas w)

/-- C0 to CF. Returns have two opcodes each, and on the 8086 two more. -/
def ofReturnRow (b : UInt8) : Opcode :=
  if b = 0xC0 ∨ b = 0xC2 then ret
  else if b = 0xC1 ∨ b = 0xC3 then plain (.ret none)
  else if b = 0xC4 then loadFar .es
  else if b = 0xC5 then loadFar .ds
  else if b < 0xC8 then movImm (Width.ofOpcode b)
  else if b = 0xC8 ∨ b = 0xCA then retFar
  else if b = 0xC9 ∨ b = 0xCB then plain (.retFar none)
  else if b = 0xCC then plain .int3
  else if b = 0xCD then int
  else if b = 0xCE then plain .into
  else plain .iret

/-- D0 to DF. -/
def ofShiftRow (b : UInt8) : Opcode :=
  if b < 0xD2 then shift (Width.ofOpcode b) .one
  else if b < 0xD4 then shift (Width.ofOpcode b) .cl
  else if b = 0xD4 then aam
  else if b = 0xD5 then aad
  else if b = 0xD6 then plain .salc
  else if b = 0xD7 then plain .xlat
  else escape

/-- E0 to EF. -/
def ofJumpRow (b : UInt8) : Opcode :=
  let w := Width.ofOpcode b
  if b = 0xE0 then loop .whileNotZero
  else if b = 0xE1 then loop .whileZero
  else if b = 0xE2 then loop .counter
  else if b = 0xE3 then jumpIfCxZero
  else if b < 0xE6 then input w
  else if b < 0xE8 then output w
  else if b = 0xE8 then callNear
  else if b = 0xE9 then jumpNear
  else if b = 0xEA then jumpFar
  else if b = 0xEB then jumpShort
  else if b < 0xEE then plain (.input w .dx)
  else plain (.output w .dx)

/-- F0 to FF. -/
def ofControlRow (b : UInt8) : Opcode :=
  if b < 0xF2 then plain .lock
  else if b = 0xF2 then plain (.repeatPrefix .whileNotZero)
  else if b = 0xF3 then plain (.repeatPrefix .whileZero)
  else if b = 0xF4 then plain .hlt
  else if b = 0xF5 then plain (.flag .complementCarry)
  else if b < 0xF8 then unary (Width.ofOpcode b)
  else if b = 0xF8 then plain (.flag .clearCarry)
  else if b = 0xF9 then plain (.flag .setCarry)
  else if b = 0xFA then plain (.flag .clearInterrupt)
  else if b = 0xFB then plain (.flag .setInterrupt)
  else if b = 0xFC then plain (.flag .clearDirection)
  else if b = 0xFD then plain (.flag .setDirection)
  else if b = 0xFE then stepByte
  else stepWord

/-- The map of the 8086. 60 to 6F are second encodings of the conditional jumps. -/
def on8086 (b : UInt8) : Opcode :=
  if b < 0x40 then ofAluRow b
  else if b < 0x48 then plain (.incReg (low b))
  else if b < 0x50 then plain (.decReg (low b))
  else if b < 0x58 then plain (.pushReg (low b))
  else if b < 0x60 then plain (.popReg (low b))
  else if b < 0x80 then jumpIf (b &&& 0x0F)
  else if b < 0x90 then ofMoveRow b
  else if b = 0x90 then plain .nop
  else if b < 0x98 then plain (.xchgAcc (low b))
  else if b < 0xA0 then ofConvertRow b
  else if b < 0xB0 then ofStringRow b
  else if b < 0xB8 then movReg .byte (low b)
  else if b < 0xC0 then movReg .word (low b)
  else if b < 0xD0 then ofReturnRow b
  else if b < 0xE0 then ofShiftRow b
  else if b < 0xF0 then ofJumpRow b
  else ofControlRow b

/-- Where the 80186 departs from the 8086. -/
def new80186? (b : UInt8) : Option Opcode :=
  if b = 0x0F then some (plain .unknown)
  else if b = 0x60 then some (plain .pushAll)
  else if b = 0x61 then some (plain .popAll)
  else if b = 0x62 then some bound
  else if 0x63 ≤ b ∧ b ≤ 0x67 then some (plain .unknown)
  else if b = 0x68 then some pushWord
  else if b = 0x69 then some mulWord
  else if b = 0x6A then some pushSigned
  else if b = 0x6B then some mulSigned
  else if b = 0x6C ∨ b = 0x6D then some (plain (.string .ins (Width.ofOpcode b)))
  else if b = 0x6E ∨ b = 0x6F then some (plain (.string .outs (Width.ofOpcode b)))
  else if b = 0xC0 ∨ b = 0xC1 then some (shiftImm (Width.ofOpcode b))
  else if b = 0xC8 then some enter
  else if b = 0xC9 then some (plain .leave)
  else if b = 0xF1 then some (plain .unknown)
  else none

def ofByte : Variant → UInt8 → Opcode
  | .i8086, b => on8086 b
  | .i80186, b => (new80186? b).getD (on8086 b)

end Opcode
end RealMode
