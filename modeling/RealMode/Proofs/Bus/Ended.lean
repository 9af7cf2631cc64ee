import RealMode.Proofs.Bus.Access

/-!
The interrupts that are ended on a bus. Of everything that a processor and a host do to a bus,
`endOfInterrupt` alone counts: the lines it is called with are listed in the order of the calls.
-/

namespace RealMode

/-- What becomes of a bus under a processor, with the lines of all calls of `endOfInterrupt`.
Between steps the host may act on the bus as `host` tells. -/
inductive Bus.Ended {β : Type} [Bus β] (host : β → β → Prop) (b : β) : List UInt8 → β → Prop
  | refl : Ended host b [] b
  | access {lines : List UInt8} {d e : β} (h : Ended host b lines d) (access : Bus.Access d e) :
      Ended host b lines e
  | tick {lines : List UInt8} {d : β} (h : Ended host b lines d) : Ended host b lines (Bus.tick d)
  | pendingIrq {lines : List UInt8} {d : β} (h : Ended host b lines d) :
      Ended host b lines (Bus.pendingIrq d).2
  | act {lines : List UInt8} {d e : β} (h : Ended host b lines d) (act : host d e) :
      Ended host b lines e
  | endOfInterrupt {lines : List UInt8} {d : β} (h : Ended host b lines d) (line : UInt8) :
      Ended host b (lines ++ [line]) (Bus.endOfInterrupt d line)

namespace Bus.Ended

variable {β : Type} [Bus β] {host : β → β → Prop} {b d e : β} {before after : List UInt8}

theorem trans (h : Ended host b before d) (g : Ended host d after e) :
    Ended host b (before ++ after) e := by
  induction g with
  | refl => rwa [List.append_nil]
  | access _ access ih => exact ih.access access
  | tick _ ih => exact ih.tick
  | pendingIrq _ ih => exact ih.pendingIrq
  | act _ act ih => exact ih.act act
  | endOfInterrupt _ line ih =>
      rw [← List.append_assoc]
      exact ih.endOfInterrupt line

theorem ticks (h : Ended host b before d) (n : Nat) : Ended host b before (Bus.ticks d n) := by
  induction n generalizing d with
  | zero => exact h
  | succ n ih => exact ih h.tick

end Bus.Ended

namespace FlatBus

/-- A host that only asks for interrupts. -/
def Requests (b d : FlatBus) : Prop :=
  ∃ irq, d = b.requestIrq irq

theorem acknowledged_access {b d : FlatBus} (h : Bus.Access b d) :
    d.acknowledged = b.acknowledged := by
  induction h with
  | refl => rfl
  | writeByte _ _ _ ih | writeWord _ _ _ ih | readPort _ _ ih | writePort _ _ _ ih
  | readPortWord _ _ ih | writePortWord _ _ _ ih => exact ih

theorem irqQueue_access {b d : FlatBus} (h : Bus.Access b d) : d.irqQueue = b.irqQueue := by
  induction h with
  | refl => rfl
  | writeByte _ _ _ ih | writeWord _ _ _ ih | readPort _ _ ih | writePort _ _ _ ih
  | readPortWord _ _ ih | writePortWord _ _ _ ih => exact ih

theorem acknowledged_ticks (b : FlatBus) (n : Nat) :
    (Bus.ticks b n).acknowledged = b.acknowledged := by
  induction n generalizing b with
  | zero => rfl
  | succ n ih => exact ih (Bus.tick b)

theorem irqQueue_ticks (b : FlatBus) (n : Nat) : (Bus.ticks b n).irqQueue = b.irqQueue := by
  induction n generalizing b with
  | zero => rfl
  | succ n ih => exact ih (Bus.tick b)

theorem pendingIrq_of_empty {b : FlatBus} (empty : b.irqQueue = []) :
    Bus.pendingIrq b = (none, b) := by
  change b.takeIrq = _
  rw [takeIrq, empty]

/-- The bus keeps a log of exactly these calls. -/
theorem acknowledged_ended {b d : FlatBus} {lines : List UInt8} (h : Bus.Ended Requests b lines d) :
    d.acknowledged.toList = b.acknowledged.toList ++ lines := by
  induction h with
  | refl => exact (List.append_nil _).symm
  | access _ access ih => rw [acknowledged_access access, ih]
  | tick _ ih => exact ih
  | @pendingIrq lines d _ ih =>
      have kept : d.takeIrq.2.acknowledged = d.acknowledged := by
        rw [takeIrq]
        split <;> rfl
      exact (congrArg Array.toList kept).trans ih
  | act _ act ih =>
      obtain ⟨irq, rfl⟩ := act
      exact ih
  | @endOfInterrupt lines d _ line ih =>
      rw [← List.append_assoc, ← ih]
      exact Array.toList_push

end FlatBus
end RealMode
