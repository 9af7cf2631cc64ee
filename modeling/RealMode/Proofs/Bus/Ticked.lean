import RealMode.Proofs.Bus.Ended

/-!
The timer ticks of a bus. Of everything that a processor and a host do to a bus, `tick` alone
counts.
-/

namespace RealMode

/-- What becomes of a bus under a processor that calls `tick` so many times. Between steps the host
may act on the bus as `host` tells. -/
inductive Bus.Ticked {β : Type} [Bus β] (host : β → β → Prop) (b : β) : Nat → β → Prop
  | refl : Ticked host b 0 b
  | access {n : Nat} {d e : β} (h : Ticked host b n d) (access : Bus.Access d e) : Ticked host b n e
  | pendingIrq {n : Nat} {d : β} (h : Ticked host b n d) : Ticked host b n (Bus.pendingIrq d).2
  | endOfInterrupt {n : Nat} {d : β} (h : Ticked host b n d) (line : UInt8) :
      Ticked host b n (Bus.endOfInterrupt d line)
  | act {n : Nat} {d e : β} (h : Ticked host b n d) (act : host d e) : Ticked host b n e
  | tick {n : Nat} {d : β} (h : Ticked host b n d) : Ticked host b (n + 1) (Bus.tick d)

namespace Bus.Ticked

variable {β : Type} [Bus β] {host : β → β → Prop} {b d e : β} {n m : Nat}

theorem trans (h : Ticked host b n d) (g : Ticked host d m e) : Ticked host b (n + m) e := by
  induction g with
  | refl => exact h
  | access _ access ih => exact ih.access access
  | pendingIrq _ ih => exact ih.pendingIrq
  | endOfInterrupt _ line ih => exact ih.endOfInterrupt line
  | act _ act ih => exact ih.act act
  | tick _ ih => exact ih.tick

theorem ticks (h : Ticked host b n d) (m : Nat) : Ticked host b (n + m) (Bus.ticks d m) := by
  induction m generalizing n d with
  | zero => exact h
  | succ m ih =>
      have next := ih h.tick
      rwa [Nat.add_right_comm] at next

end Bus.Ticked

namespace FlatBus

theorem ticks_access {b d : FlatBus} (h : Bus.Access b d) : d.ticks = b.ticks := by
  induction h with
  | refl => rfl
  | writeByte _ _ _ ih | writeWord _ _ _ ih | readPort _ _ ih | writePort _ _ _ ih
  | readPortWord _ _ ih | writePortWord _ _ _ ih => exact ih

/-- The bus counts these calls. -/
theorem ticks_ticked {b d : FlatBus} {n : Nat} (h : Bus.Ticked Requests b n d) :
    d.ticks = b.ticks + n := by
  induction h with
  | refl => rfl
  | access _ access ih => rw [ticks_access access, ih]
  | @pendingIrq n d _ ih =>
      have kept : d.takeIrq.2.ticks = d.ticks := by
        rw [takeIrq]
        split <;> rfl
      exact kept.trans ih
  | endOfInterrupt _ _ ih => exact ih
  | act _ act ih =>
      obtain ⟨irq, rfl⟩ := act
      exact ih
  | tick _ ih => exact congrArg (· + 1) ih

end FlatBus
end RealMode
