/-!
Interrupt vectors: slots of four bytes at the bottom of memory, the first eight of which belong to
exceptions of the processor.
-/

namespace RealMode

/-- Interrupts that the processor raises on its own. -/
inductive Exception where
  | divideError
  | singleStep
  | nmi
  | breakpoint
  | overflow
  | boundRange
  | invalidOpcode
  | coprocessorUnavailable
  deriving DecidableEq

namespace Exception

def all : List Exception :=
  [divideError, singleStep, nmi, breakpoint, overflow, boundRange, invalidOpcode,
    coprocessorUnavailable]

def vector : Exception → UInt8
  | divideError => 0
  | singleStep => 1
  | nmi => 2
  | breakpoint => 3
  | overflow => 4
  | boundRange => 5
  | invalidOpcode => 6
  | coprocessorUnavailable => 7

def name : Exception → String
  | divideError => "DivideError"
  | singleStep => "SingleStep"
  | nmi => "Nmi"
  | breakpoint => "Breakpoint"
  | overflow => "Overflow"
  | boundRange => "BoundRange"
  | invalidOpcode => "InvalidOpcode"
  | coprocessorUnavailable => "CoprocessorUnavailable"

end Exception

/-- Where the handler's offset stands; its segment follows two bytes later. -/
def vectorAddress (vector : UInt8) : UInt32 :=
  vector.toUInt32 * 4

end RealMode
