/-!
The two operand sizes of the instruction set. Bit 0 of most opcodes selects one of them. Results
are computed in 32 bits, so that the bit above a 16-bit result is the carry, and cut with `mask`.
-/

namespace RealMode

inductive Width where
  | byte
  | word
  deriving DecidableEq

namespace Width

/-- Bit 0 of most arithmetic and move opcodes: clear for bytes, set for words. -/
def ofOpcode (opcode : UInt8) : Width :=
  if opcode &&& 1 = 0 then .byte else .word

def mask : Width → UInt32
  | .byte => 0xFF
  | .word => 0xFFFF

def msb : Width → UInt32
  | .byte => 0x80
  | .word => 0x8000

/-- The distance between neighbouring elements of a string. -/
def bytes : Width → UInt16
  | .byte => 1
  | .word => 2

/-- The low bits of a word that belong to an operand of this width. -/
def trim (w : Width) (x : UInt16) : UInt16 :=
  x &&& w.mask.toUInt16

/-- The two's complement value of the low bits of `x`. -/
def signed : Width → UInt16 → Int
  | .byte, x => x.toUInt8.toInt8.toInt
  | .word, x => x.toInt16.toInt

/-- Whether `n` is the two's complement value of some operand of this width. -/
def holdsSigned : Width → Int → Bool
  | .byte, n => -128 ≤ n && n ≤ 127
  | .word, n => -32768 ≤ n && n ≤ 32767

end Width

end RealMode
