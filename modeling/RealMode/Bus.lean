import RealMode.Memory
import RealMode.Width

/-!
What a processor talks to: memory, ports, an interrupt controller and a timer. A bus has to say
what single bytes do; words and blocks follow from them unless it has a faster way.
-/

namespace RealMode

/-- A hardware interrupt that the controller wants delivered. -/
structure PendingIrq where
  vector : UInt8
  line : UInt8
  deriving DecidableEq

class Bus (β : Type) where
  readByte : β → UInt32 → UInt8
  writeByte : β → UInt32 → UInt8 → β
  loadBlock : β → UInt32 → ByteArray → β
  readPort : β → UInt16 → UInt8 × β
  writePort : β → UInt16 → UInt8 → β
  /-- Hands out the request of the highest priority, which is in service from then on. -/
  pendingIrq : β → Option PendingIrq × β
  endOfInterrupt : β → UInt8 → β
  tick : β → β
  readWord : β → UInt32 → UInt16 := Bytewise.readWord readByte
  writeWord : β → UInt32 → UInt16 → β := Bytewise.writeWord writeByte
  readBlock : β → UInt32 → Nat → ByteArray := Bytewise.readBlock readByte
  readPortWord : β → UInt16 → UInt16 × β := fun b port =>
    let (low, b) := readPort b port
    let (high, b) := readPort b (port + 1)
    (wordOfBytes low high, b)
  writePortWord : β → UInt16 → UInt16 → β := fun b port value =>
    writePort (writePort b port (lowByte value)) (port + 1) (highByte value)

namespace Bus

variable {β : Type} [Bus β]

def read (b : β) (w : Width) (address : UInt32) : UInt16 :=
  match w with
  | .byte => (readByte b address).toUInt16
  | .word => readWord b address

def write (b : β) (w : Width) (address : UInt32) (value : UInt16) : β :=
  match w with
  | .byte => writeByte b address (lowByte value)
  | .word => writeWord b address value

/-- The word that a far pointer starts with is its offset; the segment follows. -/
def readFar (b : β) (address : UInt32) : UInt16 × UInt16 :=
  (readWord b address, readWord b (address + 2))

def input (b : β) (w : Width) (port : UInt16) : UInt16 × β :=
  match w with
  | .byte =>
    let (value, b) := readPort b port
    (value.toUInt16, b)
  | .word => readPortWord b port

def output (b : β) (w : Width) (port value : UInt16) : β :=
  match w with
  | .byte => writePort b port (lowByte value)
  | .word => writePortWord b port value

def ticks (b : β) : Nat → β
  | 0 => b
  | n + 1 => ticks (tick b) n

end Bus
end RealMode
