import RealMode.Flags

/-!
Addition, subtraction and the bitwise operations with the flags they leave. Sums and differences
are taken in 32 bits: what lies above the operand width is the carry, and the carry into bit 4 is
the parity of the three bits there.
-/

namespace RealMode

def evenParity (b : UInt8) : Bool :=
  let b := b ^^^ b >>> 4
  let b := b ^^^ b >>> 2
  let b := b ^^^ b >>> 1
  b &&& 1 == 0

/-- The eight two-operand operations, in the order of bits 3 to 5 of their opcodes. -/
inductive AluOp where
  | add
  | or
  | adc
  | sbb
  | and
  | sub
  | xor
  | cmp
  deriving DecidableEq

namespace AluOp

def all : List AluOp := [add, or, adc, sbb, and, sub, xor, cmp]

def ofIndex : Fin 8 → AluOp
  | 0 => add
  | 1 => or
  | 2 => adc
  | 3 => sbb
  | 4 => and
  | 5 => sub
  | 6 => xor
  | 7 => cmp

def name : AluOp → String
  | add => "Add"
  | or => "Or"
  | adc => "Adc"
  | sbb => "Sbb"
  | and => "And"
  | sub => "Sub"
  | xor => "Xor"
  | cmp => "Cmp"

end AluOp

namespace Flags

/-- Zero, sign and parity of a result; parity looks at its low byte only. -/
def withResult (f : Flags) (w : Width) (result : UInt32) : Flags :=
  { f with
    zero := result &&& w.mask == 0
    sign := result &&& w.msb != 0
    parity := evenParity result.toUInt8 }

/-- The flags of a bitwise result. The auxiliary carry is kept. -/
def logical (f : Flags) (w : Width) (result : UInt32) : UInt16 × Flags :=
  ((result &&& w.mask).toUInt16, { f with carry := false, overflow := false }.withResult w result)

def add (f : Flags) (w : Width) (a b : UInt16) (carry : Bool) : UInt16 × Flags :=
  let a := a.toUInt32 &&& w.mask
  let b := b.toUInt32 &&& w.mask
  let t := a + b + carry.toUInt32
  let f := { f with
    carry := t &&& ~~~w.mask != 0
    overflow := (t ^^^ a) &&& (t ^^^ b) &&& w.msb != 0
    auxCarry := (a ^^^ b ^^^ t) &&& 0x10 != 0 }
  ((t &&& w.mask).toUInt16, f.withResult w t)

def sub (f : Flags) (w : Width) (a b : UInt16) (borrow : Bool) : UInt16 × Flags :=
  let a := a.toUInt32 &&& w.mask
  let b := b.toUInt32 &&& w.mask
  let t := a - b - borrow.toUInt32
  let f := { f with
    carry := t &&& ~~~w.mask != 0
    overflow := (t ^^^ a) &&& (a ^^^ b) &&& w.msb != 0
    auxCarry := (a ^^^ b ^^^ t) &&& 0x10 != 0 }
  ((t &&& w.mask).toUInt16, f.withResult w t)

/-- The result is absent for a comparison, which only leaves flags. -/
def alu (f : Flags) (op : AluOp) (w : Width) (a b : UInt16) : Option UInt16 × Flags :=
  let stored (r : UInt16 × Flags) := (some r.1, r.2)
  match op with
  | .add => stored (f.add w a b false)
  | .adc => stored (f.add w a b f.carry)
  | .sub => stored (f.sub w a b false)
  | .sbb => stored (f.sub w a b f.carry)
  | .or => stored (f.logical w (a ||| b).toUInt32)
  | .and => stored (f.logical w (a &&& b).toUInt32)
  | .xor => stored (f.logical w (a ^^^ b).toUInt32)
  | .cmp => (none, (f.sub w a b false).2)

/-- Adding one keeps the carry, so that counters can step inside a multi-word sum. -/
def increment (f : Flags) (w : Width) (a : UInt16) : UInt16 × Flags :=
  let r := f.add w a 1 false
  (r.1, { r.2 with carry := f.carry })

def decrement (f : Flags) (w : Width) (a : UInt16) : UInt16 × Flags :=
  let r := f.sub w a 1 false
  (r.1, { r.2 with carry := f.carry })

end Flags
end RealMode
