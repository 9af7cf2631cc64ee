import RealMode.Bus
import Std.Data.TreeMap

/-!
A bus without devices, for programs that run on their own: memory with a ROM window, ports that
read a set value and log what is written, a queue of interrupt requests and a tick counter.
-/

namespace RealMode

/-- The bytes held by ports; a port without an entry holds zero. -/
abbrev PortBytes := Std.TreeMap UInt16 UInt8

structure FlatBus where
  memory : Memory := .zero
  ports : PortBytes := ∅
  /-- Every byte written to a port, oldest first. -/
  portWrites : Array (UInt16 × UInt8) := #[]
  /-- Requests not yet handed out, oldest first. -/
  irqQueue : List PendingIrq := []
  /-- Lines whose interrupt has ended, oldest first. -/
  acknowledged : Array UInt8 := #[]
  ticks : Nat := 0

namespace FlatBus

def requestIrq (b : FlatBus) (irq : PendingIrq) : FlatBus :=
  { b with irqQueue := b.irqQueue ++ [irq] }

def setPort (b : FlatBus) (port : UInt16) (value : UInt8) : FlatBus :=
  { b with ports := b.ports.insert port value }

def takeIrq (b : FlatBus) : Option PendingIrq × FlatBus :=
  match b.irqQueue with
  | [] => (none, b)
  | irq :: rest => (some irq, { b with irqQueue := rest })

instance : Bus FlatBus where
  readByte b address := b.memory.get address
  writeByte b address value := { b with memory := b.memory.store address value }
  readWord b address := b.memory.readWord address
  writeWord b address value := { b with memory := b.memory.writeWord address value }
  readBlock b address count := b.memory.readBlock address count
  loadBlock b address data := { b with memory := b.memory.loadBlock address data }
  readPort b port := (b.ports.getD port 0, b)
  writePort b port value := { b with portWrites := b.portWrites.push (port, value) }
  pendingIrq := takeIrq
  endOfInterrupt b line := { b with acknowledged := b.acknowledged.push line }
  tick b := { b with ticks := b.ticks + 1 }

end FlatBus
end RealMode
