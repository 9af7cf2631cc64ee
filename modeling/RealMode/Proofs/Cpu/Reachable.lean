import RealMode.Proofs.Interrupt.Waking
import RealMode.Proofs.String.Elements

/-!
What can become of a processor. It starts with power on, makes steps, some of which may break off,
and between them the host may set its registers, change the bus and start it anew. Between steps
nothing asks for prefixes to be kept, and a halted processor has none in force.
-/

namespace RealMode

variable {β : Type} [Bus β] {c d : Cpu β}

inductive Reachable : Cpu β → Prop
  | powerOn (bus : β) (config : Config) : Reachable { bus, config }
  | step {c : Cpu β} (h : Reachable c) : Reachable c.step.cpu
  | host {c : Cpu β} (h : Reachable c) (regs : Registers) (bus : β) : Reachable { c with regs, bus }
  | setEntry {c : Cpu β} (h : Reachable c) (segment offset : UInt16) :
      Reachable (c.setEntry segment offset)
  | reset {c : Cpu β} (h : Reachable c) : Reachable c.reset

theorem Reachable.stepTo (h : Reachable c) (done : c.step = .ok d) : Reachable d := by
  have next := h.step
  rwa [done] at next

theorem Prefixes.retire_of_not_keep {p : Prefixes} (keep : p.keep = false) : p.retire = {} := by
  rw [retire, keep]
  rfl

namespace Cpu

/-- So many steps, whether or not they break off. -/
def steps (c : Cpu β) : Nat → Cpu β
  | 0 => c
  | k + 1 => (c.steps k).step.cpu

/-- None of the next steps accepts a hardware interrupt. -/
def Uninterrupted (c : Cpu β) (n : Nat) : Prop :=
  ∀ k < n, ∀ e ∈ (c.steps k).stepEvents, ∀ line, e.kind ≠ .entry (some line)

theorem Uninterrupted.mono {m n : Nat} (h : c.Uninterrupted n) (fewer : m ≤ n) :
    c.Uninterrupted m :=
  fun k inside => h k (Nat.lt_of_lt_of_le inside fewer)

/-- What holds at first and what a step that accepts no interrupt hands on holds as long as none is
accepted. -/
theorem Uninterrupted.invariant {P : Nat → Cpu β → Prop} {k n : Nat} (first : P 0 c)
    (next : ∀ k d, k + 1 < n → P k d →
      (∀ e ∈ d.stepEvents, ∀ line, e.kind ≠ .entry (some line)) → P (k + 1) d.step.cpu)
    (before : k < n) (h : c.Uninterrupted k) : P k (c.steps k) := by
  induction k with
  | zero => exact first
  | succ k ih =>
      have earlier := ih (Nat.lt_of_succ_lt before) (h.mono (Nat.le_succ k))
      exact next k _ before earlier (h k (Nat.lt_succ_self k))

/-- If there are no events as long as that holds, there is nothing to accept. -/
theorem Uninterrupted.of_silent {P : Nat → Cpu β → Prop} {n : Nat} (first : P 0 c)
    (next : ∀ k d, k + 1 < n → P k d →
      (∀ e ∈ d.stepEvents, ∀ line, e.kind ≠ .entry (some line)) → P (k + 1) d.step.cpu)
    (silent : ∀ k d, k < n → P k d → d.stepEvents = []) : c.Uninterrupted n := by
  have all : ∀ m ≤ n, c.Uninterrupted m := by
    intro m enough
    induction m with
    | zero => exact fun _ impossible => absurd impossible (Nat.not_lt_zero _)
    | succ m ih =>
        have earlier := ih (Nat.le_of_succ_le enough)
        have events := silent m _ enough (earlier.invariant first next enough)
        intro k inside
        rcases Nat.lt_succ_iff_lt_or_eq.1 inside with inside | rfl
        · exact earlier k inside
        · rw [events]
          exact fun _ impossible => absurd impossible List.not_mem_nil
  exact all n (Nat.le_refl n)

/-- The prefixes of a processor between two steps. -/
structure Rested (c : Cpu β) : Prop where
  keep : c.prefixes.keep = false
  halted : c.halted = true → c.prefixes = {}

namespace Rested

omit [Bus β] in
theorem congr (h : c.Rested) (prefixes : d.prefixes = c.prefixes) (halted : d.halted = c.halted) :
    d.Rested := by
  refine ⟨by rw [prefixes, h.keep], fun asleep => ?_⟩
  rw [halted] at asleep
  rw [prefixes, h.halted asleep]

theorem polled (h : c.Rested) (polled : Polled c d) : d.Rested := by
  cases polled with
  | off => exact h
  | idle => exact h.congr rfl rfl

theorem boundary (h : c.Rested) {armed : Bool} {events : List (Event β)} {o : Outcome β}
    (between : Boundary c armed events o) : o.cpu.Rested := by
  cases between with
  | nothing polled | missingTrap polled => exact h.polled polled
  | @trap polledCpu target polled =>
      have entered := (Plain.refl polledCpu).enterInterrupt target Flags.maskInterrupts
      exact (h.polled polled).congr entered.prefixes entered.halted
  | accepted => exact ⟨h.keep, fun asleep => absurd asleep Bool.false_ne_true⟩
  | refused => exact h.congr rfl rfl

/-- Only a halt leaves the processor halted, and it hands on no prefix. -/
theorem retire (h : c.Rested) (running : c.halted = false) (done : c.dispatch = .ok d) :
    d.retire.Rested := by
  refine ⟨keep_retire _, fun asleep => ?_⟩
  have isHalt := (halted_dispatch running done).1 asleep
  change c.fetched.exec c.fetch.instr = .ok d at done
  rw [isHalt] at done
  cases done
  exact Prefixes.retire_of_not_keep h.keep

theorem step (h : c.Rested) : c.step.cpu.Rested := by
  have paid : c.syncTimer.Rested := h.congr rfl rfl
  have all := c.stepped
  generalize c.stepEvents = events at all
  generalize c.step = o at all
  cases all with
  | idle _ between =>
      have waits : (c.syncTimer.spend c.config.timerRatio).Rested := h.congr rfl rfl
      exact waits.boundary between
  | cycle running done _ between => exact (paid.retire running done).boundary between
  | broken => exact paid.congr rfl rfl

end Rested
end Cpu

theorem Reachable.rested (h : Reachable c) : c.Rested := by
  induction h with
  | powerOn | reset => exact ⟨rfl, fun _ => rfl⟩
  | step _ ih => exact ih.step
  | host _ _ _ ih => exact ih.congr rfl rfl
  | setEntry _ _ _ ih => exact ⟨ih.keep, fun asleep => absurd asleep Bool.false_ne_true⟩

end RealMode
