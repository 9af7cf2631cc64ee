import RealMode.Cpu

/-!
Placing images in memory before a run. An image is placed whole or not at all, and of several
reasons to refuse it the first in the order of `LoadError` is given.
-/

namespace RealMode

inductive LoadError where
  | segmentOutOfRange (segment : UInt32)
  | emptyImage
  | programTooLarge (start : UInt32) (length : Nat)
  | biosTooLarge (length : Nat)
  deriving DecidableEq

namespace LoadError

def message : LoadError → String
  | segmentOutOfRange segment =>
    "Segment " ++ Hex.prefixed 1 segment.toNat ++ " is outside of the 16-bit segment range"
  | emptyImage => "Program image is empty"
  | programTooLarge start length =>
    "Program of " ++ toString length ++ " bytes at @" ++ Hex.prefixed 5 start.toNat
      ++ " does not fit into the address space"
  | biosTooLarge length =>
    "BIOS image of " ++ toString length ++ " bytes does not fit into the address space"

end LoadError

def bootJump (segment : UInt16) : ByteArray :=
  ⟨#[0xEA, 0x00, 0x00, lowByte segment, highByte segment]⟩

namespace Cpu

variable {β : Type} [Bus β]

/-- Places a program at `segment:0000`. CS and IP stay as they are. -/
def loadProgram (c : Cpu β) (segment : UInt32) (program : ByteArray) : Except LoadError (Cpu β) :=
  let start := segment <<< 4
  if segment > 0xFFFF then .error (.segmentOutOfRange segment)
  else if program.size = 0 then .error .emptyImage
  else if start.toNat + program.size > memorySize then
    .error (.programTooLarge start program.size)
  else .ok { c with bus := Bus.loadBlock c.bus start program }

/-- Also places a jump to the program where a reset processor starts. -/
def loadBootstrapped (c : Cpu β) (segment : UInt32) (program : ByteArray) :
    Except LoadError (Cpu β) :=
  match c.loadProgram segment program with
  | .ok c => .ok { c with bus := Bus.loadBlock c.bus bootVector (bootJump segment.toUInt16) }
  | .error e => .error e

/-- Places a ROM image so that its last byte is the last byte of the address space. -/
def loadBios (c : Cpu β) (image : ByteArray) : Except LoadError (Cpu β) :=
  if image.size = 0 then .error .emptyImage
  else if image.size > memorySize then .error (.biosTooLarge image.size)
  else .ok { c with bus := Bus.loadBlock c.bus (memorySize - image.size).toUInt32 image }

end Cpu
end RealMode
