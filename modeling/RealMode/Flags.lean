import RealMode.Width

/-!
The nine status and control flags, their packed word, and the conditions of the conditional jumps.
Packing loses nothing: the bits of the word that belong to no flag always read as one, and
unpacking ignores them.
-/

namespace RealMode

structure Flags where
  carry : Bool := false
  parity : Bool := false
  auxCarry : Bool := false
  zero : Bool := false
  sign : Bool := false
  trap : Bool := false
  interrupt : Bool := false
  direction : Bool := false
  overflow : Bool := false
  deriving DecidableEq

namespace Flags

/-- Bits of the packed word that belong to no flag. -/
def reservedBits : UInt16 := 0xF002

def bit (set : Bool) (place : UInt16) : UInt16 :=
  if set then place else 0

def toWord (f : Flags) : UInt16 :=
  reservedBits ||| bit f.carry 0x0001 ||| bit f.parity 0x0004 ||| bit f.auxCarry 0x0010
    ||| bit f.zero 0x0040 ||| bit f.sign 0x0080 ||| bit f.trap 0x0100 ||| bit f.interrupt 0x0200
    ||| bit f.direction 0x0400 ||| bit f.overflow 0x0800

/-- The arithmetic flags that share the low byte; the others are kept. -/
def loadLowByte (f : Flags) (value : UInt8) : Flags :=
  { f with
    carry := value &&& 0x01 != 0
    parity := value &&& 0x04 != 0
    auxCarry := value &&& 0x10 != 0
    zero := value &&& 0x40 != 0
    sign := value &&& 0x80 != 0 }

def ofWord (value : UInt16) : Flags where
  carry := value &&& 0x0001 != 0
  parity := value &&& 0x0004 != 0
  auxCarry := value &&& 0x0010 != 0
  zero := value &&& 0x0040 != 0
  sign := value &&& 0x0080 != 0
  trap := value &&& 0x0100 != 0
  interrupt := value &&& 0x0200 != 0
  direction := value &&& 0x0400 != 0
  overflow := value &&& 0x0800 != 0

/-- The condition in the low nibble of a conditional jump. An odd code negates the even code
before it. -/
def condition (f : Flags) (code : UInt8) : Bool :=
  let holds := match code.toNat / 2 % 8 with
    | 0 => f.overflow
    | 1 => f.carry
    | 2 => f.zero
    | 3 => f.carry || f.zero
    | 4 => f.sign
    | 5 => f.parity
    | 6 => f.sign != f.overflow
    | _ => f.zero || f.sign != f.overflow
  holds != (code.toNat % 2 == 1)

/-- What an interrupt entry does to the flags after they are pushed: the handler can be neither
preempted nor single-stepped. -/
def maskInterrupts (f : Flags) : Flags :=
  { f with interrupt := false, trap := false }

def letter (set : Bool) (c : Char) : Char :=
  if set then c else '-'

/-- Nine letters, a dash for each clear flag. -/
def text (f : Flags) : String :=
  String.ofList [letter f.overflow 'O', letter f.direction 'D', letter f.interrupt 'I',
    letter f.trap 'T', letter f.sign 'S', letter f.zero 'Z', letter f.auxCarry 'A',
    letter f.parity 'P', letter f.carry 'C']

end Flags
end RealMode
