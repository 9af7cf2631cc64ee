import RealMode.Width

/-!
Products of double width and their inverse, quotient with remainder. A quotient that does not fit
the operand width has no answer, and neither has a division by zero.
-/

namespace RealMode

/-- A product of double width in two halves. A byte product lies in `low` as a whole. -/
structure Product where
  low : UInt16
  high : UInt16
  /-- The upper half says more than an extension of the lower half. -/
  wide : Bool
  deriving DecidableEq

namespace Product

def unsigned : Width → UInt16 → UInt16 → Product
  | .byte, a, b =>
    let p := (a &&& 0xFF) * (b &&& 0xFF)
    ⟨p, 0, p > 0xFF⟩
  | .word, a, b =>
    let p := a.toUInt32 * b.toUInt32
    ⟨p.toUInt16, (p >>> 16).toUInt16, p > 0xFFFF⟩

def signed (w : Width) (a b : UInt16) : Product :=
  let p := w.signed a * w.signed b
  let high := match w with
    | .byte => 0
    | .word => UInt16.ofInt (p / 0x10000)
  ⟨UInt16.ofInt p, high, !w.holdsSigned p⟩

end Product

structure Quotient where
  quotient : UInt16
  remainder : UInt16
  deriving DecidableEq

namespace Quotient

def unsigned? (w : Width) (dividend : UInt32) (divisor : UInt16) : Option Quotient :=
  let d := divisor.toUInt32 &&& w.mask
  if d = 0 then none
  else if dividend / d > w.mask then none
  else some ⟨(dividend / d).toUInt16, (dividend % d).toUInt16⟩

/-- The dividend has twice the width of the divisor. -/
def signedDividend : Width → UInt32 → Int
  | .byte, n => n.toUInt16.toInt16.toInt
  | .word, n => n.toInt32.toInt

/-- The quotient is cut toward zero, and the remainder has the sign of the dividend. -/
def signed? (w : Width) (dividend : UInt32) (divisor : UInt16) : Option Quotient :=
  let n := signedDividend w dividend
  let d := w.signed divisor
  if d = 0 then none
  else if w.holdsSigned (n.tdiv d) then
    some ⟨w.trim (UInt16.ofInt (n.tdiv d)), w.trim (UInt16.ofInt (n.tmod d))⟩
  else none

end Quotient
end RealMode
