import RealMode.Flags.Arithmetic

/-!
Shifts and rotates, one bit at a time. A count is so many single-bit steps; only the overflow flag
looks at the whole way, comparing the sign bit before the first step with the one after the last.
-/

namespace RealMode

/-- The rotates and shifts, in the order of the reg field. Encoding 6 is a second name of `shl`. -/
inductive ShiftOp where
  | rol
  | ror
  | rcl
  | rcr
  | shl
  | shr
  | sal
  | sar
  deriving DecidableEq

namespace ShiftOp

def all : List ShiftOp := [rol, ror, rcl, rcr, shl, shr, sal, sar]

def ofIndex : Fin 8 → ShiftOp
  | 0 => rol
  | 1 => ror
  | 2 => rcl
  | 3 => rcr
  | 4 => shl
  | 5 => shr
  | 6 => sal
  | 7 => sar

def name : ShiftOp → String
  | rol => "Rol"
  | ror => "Ror"
  | rcl => "Rcl"
  | rcr => "Rcr"
  | shl => "Shl"
  | shr => "Shr"
  | sal => "Sal"
  | sar => "Sar"

end ShiftOp

namespace Flags

def setIf (set : Bool) (place : UInt32) : UInt32 :=
  if set then place else 0

/-- A shift leaves the flags of its result and the bit that fell out as carry. -/
def shifted (f : Flags) (w : Width) (x : UInt32) (out : Bool) : UInt32 × Flags :=
  (x, { (f.logical w x).2 with carry := out })

/-- One single-bit step on a value below `2 ^ w`. -/
def shiftBit (op : ShiftOp) (w : Width) (s : UInt32 × Flags) : UInt32 × Flags :=
  let (x, f) := s
  let top := x &&& w.msb != 0
  let bottom := x &&& 1 != 0
  match op with
  | .rol => ((x <<< 1 ||| setIf top 1) &&& w.mask, { f with carry := top })
  | .ror => (x >>> 1 ||| setIf bottom w.msb, { f with carry := bottom })
  | .rcl => ((x <<< 1 ||| setIf f.carry 1) &&& w.mask, { f with carry := top })
  | .rcr => (x >>> 1 ||| setIf f.carry w.msb, { f with carry := bottom })
  | .shl | .sal => f.shifted w (x <<< 1 &&& w.mask) top
  | .shr => f.shifted w (x >>> 1) bottom
  | .sar => f.shifted w (x >>> 1 ||| x &&& w.msb) bottom

def shiftBits (op : ShiftOp) (w : Width) : Nat → UInt32 × Flags → UInt32 × Flags
  | 0, s => s
  | n + 1, s => shiftBits op w n (shiftBit op w s)

/-- A count of zero leaves value and flags alone. -/
def shift (f : Flags) (op : ShiftOp) (w : Width) (value : UInt16) (count : UInt8) :
    UInt16 × Flags :=
  if count = 0 then (value, f)
  else
    let start := value.toUInt32 &&& w.mask
    let (x, f) := shiftBits op w count.toNat (start, f)
    (x.toUInt16, { f with overflow := start &&& w.msb != x &&& w.msb })

end Flags
end RealMode
