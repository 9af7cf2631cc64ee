import RealMode.Device

/-!
Simple peripherals to attach to a machine: byte cells with and without a twist, and devices that take
words as a whole.
-/

namespace RealMode

inductive Peripheral.Kind where
  /-- Holds the last byte written to each port. -/
  | cell
  /-- Holds one more than the last byte written. -/
  | latch
  /-- Takes words, as two of its own bytes; it answers for ports that are not its own. -/
  | native
  /-- Holds one word for all its ports; it has no bytes. -/
  | wide
  deriving DecidableEq

structure Peripheral where
  name : String
  kind : Peripheral.Kind
  ports : List UInt16
  /-- One byte for each entry of `ports`; of equal entries only the first is used. -/
  cells : List UInt8
  /-- The word of a `wide` peripheral. -/
  word : UInt16 := 0

namespace Peripheral

/-- What is read where there is nothing. -/
def floating : UInt8 := 0xEE

def ofPorts (name : String) (kind : Kind) (ports : List UInt16) : Peripheral where
  name
  kind
  ports
  cells := ports.map fun _ => 0

def cellOf (p : Peripheral) (port : UInt16) : UInt8 :=
  match p.ports.findIdx? (· == port) with
  | some i => p.cells.getD i floating
  | none => floating

def setCell (p : Peripheral) (port : UInt16) (value : UInt8) : Peripheral :=
  match p.ports.findIdx? (· == port) with
  | some i => { p with cells := p.cells.set i value }
  | none => p

def getByte (p : Peripheral) (port : UInt16) : UInt8 :=
  match p.kind with
  | .wide => floating
  | _ => p.cellOf port

def setByte (p : Peripheral) (port : UInt16) (value : UInt8) : Peripheral :=
  match p.kind with
  | .wide => p
  | .latch => p.setCell port (value + 1)
  | _ => p.setCell port value

instance : PortDevice Peripheral where
  name := name
  ports := ports
  getByte p port := (p.getByte port, p)
  setByte := setByte
  supportsWord p := p.kind == .native || p.kind == .wide
  getWord p port :=
    match p.kind with
    | .wide => (p.word, p)
    | _ => (wordOfBytes (p.getByte port) (p.getByte (port + 1)), p)
  setWord p port value :=
    match p.kind with
    | .wide => { p with word := value }
    | _ => setByte (setByte p port (lowByte value)) (port + 1) (highByte value)

end Peripheral
end RealMode
