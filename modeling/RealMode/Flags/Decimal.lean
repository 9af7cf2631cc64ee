import RealMode.Flags.Arithmetic
import RealMode.Word

/-!
Decimal adjustment of the accumulator, packed (two digits a byte) and unpacked (one digit a byte).
An adjustment reads the flags that the addition or subtraction before it left.
-/

namespace RealMode
namespace Flags

def lowDigitOff (f : Flags) (al : UInt8) : Bool :=
  al &&& 0x0F > 9 || f.auxCarry

/-- After an addition of packed decimals. -/
def daa (f : Flags) (al : UInt8) : UInt8 × Flags :=
  let low := f.lowDigitOff al
  let high := al > 0x99 || f.carry
  let r := if low then al + 0x06 else al
  let r := if high then r + 0x60 else r
  (r, { f with auxCarry := low, carry := high }.withResult .byte r.toUInt32)

/-- After a subtraction of packed decimals. The low digit may borrow from an accumulator that is
itself below 6. -/
def das (f : Flags) (al : UInt8) : UInt8 × Flags :=
  let low := f.lowDigitOff al
  let high := al > 0x99 || f.carry
  let r := if low then al - 0x06 else al
  let r := if high then r - 0x60 else r
  (r, { f with auxCarry := low, carry := high || (low && al < 6) }.withResult .byte r.toUInt32)

/-- After an addition of unpacked decimals. The two halves of AX are adjusted apart. -/
def aaa (f : Flags) (ax : UInt16) : UInt16 × Flags :=
  let al := lowByte ax
  let ah := highByte ax
  let off := f.lowDigitOff al
  let r := if off then wordOfBytes ((al + 6) &&& 0x0F) (ah + 1) else wordOfBytes (al &&& 0x0F) ah
  (r, { f with auxCarry := off, carry := off })

/-- After a subtraction of unpacked decimals. -/
def aas (f : Flags) (ax : UInt16) : UInt16 × Flags :=
  let al := lowByte ax
  let ah := highByte ax
  let off := f.lowDigitOff al
  let r := if off then wordOfBytes ((al - 6) &&& 0x0F) (ah - 1) else wordOfBytes (al &&& 0x0F) ah
  (r, { f with auxCarry := off, carry := off })

/-- Splits AL into two digits of `base`. There is no answer in base zero. -/
def aam (f : Flags) (al base : UInt8) : Option (UInt16 × Flags) :=
  if base = 0 then none
  else some (wordOfBytes (al % base) (al / base), f.withResult .byte (al % base).toUInt32)

/-- Joins two digits of `base`; AH is left zero. -/
def aad (f : Flags) (ax : UInt16) (base : UInt8) : UInt16 × Flags :=
  let al := highByte ax * base + lowByte ax
  (al.toUInt16, f.withResult .byte al.toUInt32)

end Flags
end RealMode
