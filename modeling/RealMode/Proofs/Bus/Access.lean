import RealMode.Bus.Flat
import RealMode.PcBus

/-!
What instructions do to a bus: they write memory and use ports, and neither ask for interrupts, end
them, nor make time go by. The buses that run programs keep their bytes in one memory, which
nothing but such writes changes.
-/

namespace RealMode

/-- What instructions make of a bus. -/
inductive Bus.Access {β : Type} [Bus β] (b : β) : β → Prop
  | refl : Access b b
  | writeByte {d : β} (h : Access b d) (address : UInt32) (value : UInt8) :
      Access b (Bus.writeByte d address value)
  | writeWord {d : β} (h : Access b d) (address : UInt32) (value : UInt16) :
      Access b (Bus.writeWord d address value)
  | readPort {d : β} (h : Access b d) (port : UInt16) : Access b (Bus.readPort d port).2
  | writePort {d : β} (h : Access b d) (port : UInt16) (value : UInt8) :
      Access b (Bus.writePort d port value)
  | readPortWord {d : β} (h : Access b d) (port : UInt16) : Access b (Bus.readPortWord d port).2
  | writePortWord {d : β} (h : Access b d) (port value : UInt16) :
      Access b (Bus.writePortWord d port value)

namespace Bus.Access

variable {β : Type} [Bus β] {b d e : β}

theorem trans (h : Access b d) (g : Access d e) : Access b e := by
  induction g with
  | refl => exact h
  | writeByte _ address value ih => exact ih.writeByte address value
  | writeWord _ address value ih => exact ih.writeWord address value
  | readPort _ port ih => exact ih.readPort port
  | writePort _ port value ih => exact ih.writePort port value
  | readPortWord _ port ih => exact ih.readPortWord port
  | writePortWord _ port value ih => exact ih.writePortWord port value

theorem write (h : Access b d) (w : Width) (address : UInt32) (value : UInt16) :
    Access b (Bus.write d w address value) := by
  cases w with
  | byte => exact h.writeByte address (lowByte value)
  | word => exact h.writeWord address value

theorem input (h : Access b d) (w : Width) (port : UInt16) : Access b (Bus.input d w port).2 := by
  cases w with
  | byte => exact h.readPort port
  | word => exact h.readPortWord port

theorem output (h : Access b d) (w : Width) (port value : UInt16) :
    Access b (Bus.output d w port value) := by
  cases w with
  | byte => exact h.writePort port (lowByte value)
  | word => exact h.writePortWord port value

end Bus.Access

/-- A bus with one memory behind it, in which a running program stores. -/
class MemoryBus (β : Type) [Bus β] where
  memory : β → Memory
  readByte (b : β) (address : UInt32) : Bus.readByte b address = (memory b).get address
  readWord (b : β) (address : UInt32) : Bus.readWord b address = (memory b).readWord address
  readBlock (b : β) (address : UInt32) (count : Nat) :
    Bus.readBlock b address count = (memory b).readBlock address count
  writeByte (b : β) (address : UInt32) (value : UInt8) :
    memory (Bus.writeByte b address value) = (memory b).store address value
  writeWord (b : β) (address : UInt32) (value : UInt16) :
    memory (Bus.writeWord b address value) = (memory b).writeWord address value
  readPort (b : β) (port : UInt16) : memory (Bus.readPort b port).2 = memory b
  writePort (b : β) (port : UInt16) (value : UInt8) :
    memory (Bus.writePort b port value) = memory b
  readPortWord (b : β) (port : UInt16) : memory (Bus.readPortWord b port).2 = memory b
  writePortWord (b : β) (port value : UInt16) :
    memory (Bus.writePortWord b port value) = memory b
  pendingIrq (b : β) : memory (Bus.pendingIrq b).2 = memory b
  endOfInterrupt (b : β) (line : UInt8) : memory (Bus.endOfInterrupt b line) = memory b
  tick (b : β) : memory (Bus.tick b) = memory b

theorem MemoryBus.ticks {β : Type} [Bus β] [MemoryBus β] (b : β) (n : Nat) :
    memory (Bus.ticks b n) = memory b := by
  induction n generalizing b with
  | zero => rfl
  | succ n ih => exact (ih (Bus.tick b)).trans (tick b)

theorem MemoryBus.input {β : Type} [Bus β] [MemoryBus β] (b : β) (w : Width) (port : UInt16) :
    memory (Bus.input b w port).2 = memory b := by
  cases w with
  | byte => exact readPort b port
  | word => exact readPortWord b port

theorem MemoryBus.output {β : Type} [Bus β] [MemoryBus β] (b : β) (w : Width)
    (port value : UInt16) : memory (Bus.output b w port value) = memory b := by
  cases w with
  | byte => exact writePort b port (lowByte value)
  | word => exact writePortWord b port value

theorem MemoryBus.read_congr {β : Type} [Bus β] [MemoryBus β] {b d : β}
    (same : memory d = memory b) (w : Width) (address : UInt32) :
    Bus.read d w address = Bus.read b w address := by
  cases w with
  | byte => simp only [Bus.read, readByte, same]
  | word => simp only [Bus.read, readWord, same]

theorem MemoryBus.readFar_congr {β : Type} [Bus β] [MemoryBus β] {b d : β}
    (same : memory d = memory b) (address : UInt32) :
    Bus.readFar d address = Bus.readFar b address := by
  rw [Bus.readFar, Bus.readFar, readWord, readWord, readWord, readWord, same]

instance : MemoryBus FlatBus where
  memory := FlatBus.memory
  readByte _ _ := rfl
  readWord _ _ := rfl
  readBlock _ _ _ := rfl
  writeByte _ _ _ := rfl
  writeWord _ _ _ := rfl
  readPort _ _ := rfl
  writePort _ _ _ := rfl
  readPortWord _ _ := rfl
  writePortWord _ _ _ := rfl
  pendingIrq b := by
    change b.takeIrq.2.memory = b.memory
    rw [FlatBus.takeIrq]
    split <;> rfl
  endOfInterrupt _ _ := rfl
  tick _ := rfl

namespace PcBus

variable {δ : Type} [PortDevice δ]

theorem memory_readPort (b : PcBus δ) (port : UInt16) : (b.readPort port).2.memory = b.memory := by
  rw [readPort]
  split
  next owner _ =>
    cases owner with
    | pic | pit => rfl
    | attached i =>
        rw [getOwned]
        split <;> rfl
  next => rfl

theorem memory_writePort (b : PcBus δ) (port : UInt16) (value : UInt8) :
    (b.writePort port value).memory = b.memory := by
  rw [writePort]
  split
  next owner _ =>
    cases owner with
    | pic | pit => rfl
    | attached i =>
        rw [setOwned]
        split <;> rfl
  next => rfl

instance : MemoryBus (PcBus δ) where
  memory := PcBus.memory
  readByte _ _ := rfl
  readWord _ _ := rfl
  readBlock _ _ _ := rfl
  writeByte _ _ _ := rfl
  writeWord _ _ _ := rfl
  readPort := memory_readPort
  writePort := memory_writePort
  readPortWord b port := by
    change (b.readPortWord port).2.memory = b.memory
    rw [readPortWord]
    split
    · rfl
    · exact (memory_readPort _ _).trans (memory_readPort b port)
  writePortWord b port value := by
    change (b.writePortWord port value).memory = b.memory
    rw [writePortWord]
    split
    · rfl
    · exact (memory_writePort _ _ _).trans (memory_writePort b port _)
  pendingIrq _ := rfl
  endOfInterrupt _ _ := rfl
  tick _ := rfl

end PcBus
end RealMode
