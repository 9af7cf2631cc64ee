import RealMode.Bus.Flat

/-!
The least a bus can be: memory without a ROM window, ports that keep what is written, one slot for
an interrupt request and a tick counter. Words and blocks take the bytewise way.
-/

namespace RealMode

structure LoopbackBus where
  memory : Memory := .zero
  ports : PortBytes := ∅
  /-- A new request replaces one that has not been handed out. -/
  slot : Option PendingIrq := none
  /-- Lines whose interrupt has ended, oldest first. -/
  ended : Array UInt8 := #[]
  ticks : Nat := 0

namespace LoopbackBus

instance : Bus LoopbackBus where
  readByte b address := b.memory.get address
  writeByte b address value := { b with memory := b.memory.set address value }
  loadBlock b address data := { b with memory := b.memory.loadBlock address data }
  readPort b port := (b.ports.getD port 0, b)
  writePort b port value := { b with ports := b.ports.insert port value }
  pendingIrq b := (b.slot, { b with slot := none })
  endOfInterrupt b line := { b with ended := b.ended.push line }
  tick b := { b with ticks := b.ticks + 1 }

end LoopbackBus
end RealMode
