import RealMode.Proofs.Pit.Counting

/-!
How a channel counts is its own affair. To read, to latch and to see to the other channels leaves
traces in the chip, but none that a count could show: two runs of which one is the other without
such operations stand at the same count after each tick.
-/

namespace RealMode
namespace Pit

/-- What can be seen of a channel from outside without reading its port. -/
structure Standing where
  mode : Mode
  access : Access
  counter : Nat
  armed : Bool
  deriving DecidableEq

namespace Channel

def standing (c : Channel) : Standing where
  mode := c.mode
  access := c.access
  counter := c.counter
  armed := c.armed

theorem counting_write (c : Channel) (value : UInt8) :
    (c.write value).counting = (c.counting.write value).counting := by
  obtain ⟨mode, access, reload, counter, latched, readHigh, writeHigh, armed, output⟩ := c
  cases access with
  | low | high | latch => rfl
  | lowHigh => cases writeHigh <;> rfl

theorem counting_perform_self (c : Channel) (e : Event) :
    (c.perform e).counting = (c.counting.perform e).counting := by
  cases e with
  | tick => exact (congrArg (fun ticked => (Prod.snd ticked).counting) c.tick_counting :).symm
  | read => rw [perform, perform, counting_read, counting_read]; rfl
  | latch | program => rfl
  | write value => exact c.counting_write value

variable {c d : Channel}

/-- What reading leaves behind does not come into a count. -/
theorem counting_perform_congr (same : c.counting = d.counting) (e : Event) :
    (c.perform e).counting = (d.perform e).counting := by
  rw [counting_perform_self c, counting_perform_self d, same]

theorem edge_congr (same : c.counting = d.counting) : c.tick.1 = d.tick.1 := by
  have edge (c : Channel) : c.counting.tick.1 = c.tick.1 := by rw [tick_counting]
  rw [← edge c, ← edge d, same]

theorem standing_congr (same : c.counting = d.counting) : c.standing = d.standing :=
  (congrArg standing same :)

end Channel

def standing? (i : Fin 3) (p : Pit) : Op → Option Standing
  | .tick => some (p.tick.2.channel i).standing
  | _ => none

/-- Where a channel stands after each tick. -/
def standings (i : Fin 3) : Pit → List Op → List Standing := answers perform (standing? i)

/-- Operations that observe the timer or are for another channel. -/
inductive Op.LeavesAlone (i : Fin 3) : Op → Prop
  | read (port : UInt16) : LeavesAlone i (.read port)
  | latch {value : UInt8} (latches : value.toNat / 16 % 4 = 0) :
      LeavesAlone i (.write controlPort value)
  | readBack {value : UInt8} (nobody : value.toNat / 64 = 3) :
      LeavesAlone i (.write controlPort value)
  | program {value : UInt8} {j : Fin 3} (other : j ≠ i) (named : value.toNat / 64 = j) :
      LeavesAlone i (.write controlPort value)
  | count {port : UInt16} (value : UInt8) {j : Fin 3} (other : j ≠ i)
      (owned : port.toNat = channelBase.toNat + j) : LeavesAlone i (.write port value)

/-- What is left of a sequence of operations after some that leave the channel alone, or all of
them, have been deleted. -/
inductive Deletion (i : Fin 3) : List Op → List Op → Prop
  | nil : Deletion i [] []
  | keep {ops kept : List Op} (op : Op) (rest : Deletion i ops kept) :
      Deletion i (op :: ops) (op :: kept)
  | delete {ops kept : List Op} {op : Op} (alone : op.LeavesAlone i) (rest : Deletion i ops kept) :
      Deletion i (op :: ops) kept

theorem channelIndex?_eq_some_iff {n : Nat} {j : Fin 3} : channelIndex? n = some j ↔ n = j := by
  rw [channelIndex?, Option.dite_none_right_eq_some]
  refine ⟨fun ⟨_, same⟩ => ?_, fun same => ⟨same ▸ j.isLt, ?_⟩⟩
  · rw [← Option.some.inj same]
  · exact congrArg some (Fin.ext same)

theorem event?_control (i : Fin 3) (value : UInt8) :
    (Op.write controlPort value).event? i =
      if value.toNat / 64 = i then some (controlEvent value) else none := by
  simp only [Op.event?, Op.target?, if_true]
  split
  next named => simp [channelIndex?_eq_some_iff.2 named]
  next other =>
    cases named : channelIndex? (value.toNat / 64) with
    | none => rfl
    | some j =>
        have apart : j ≠ i := fun same => other (same ▸ channelIndex?_eq_some_iff.1 named)
        exact if_neg apart

theorem event?_count (i : Fin 3) {port : UInt16} {j : Fin 3}
    (owned : port.toNat = channelBase.toNat + j) (value : UInt8) :
    (Op.write port value).event? i = if j = i then some (.write value) else none := by
  have base : channelBase.toNat = 0x40 := rfl
  have control : controlPort.toNat = 0x43 := rfl
  have small := j.isLt
  have apart : port ≠ controlPort := by
    rintro rfl
    omega
  have above : channelBase ≤ port := UInt16.le_iff_toNat_le.2 (by omega)
  have channel : portChannel? port = some j := by
    rw [portChannel?, channelIndex?_eq_some_iff, UInt16.toNat_sub_of_le _ _ above]
    omega
  simp [Op.event?, Op.target?, apart, channel]

/-- To the channel itself such an operation is a look at most. -/
theorem Op.LeavesAlone.event {i : Fin 3} {op : Op} (alone : op.LeavesAlone i) {e : Channel.Event}
    (event : op.event? i = some e) : e.Spares ∧ e ≠ .tick := by
  cases alone with
  | read port =>
      rw [event?_read, Option.ite_none_right_eq_some] at event
      rw [← Option.some.inj event.2]
      exact ⟨trivial, nofun⟩
  | @latch value latches =>
      have access : lowTwo (value.toNat / 16) = 0 := Fin.ext latches
      have command : controlEvent value = .latch := by
        rw [controlEvent, access]
        rfl
      rw [event?_control, Option.ite_none_right_eq_some, command] at event
      rw [← Option.some.inj event.2]
      exact ⟨trivial, nofun⟩
  | readBack nobody =>
      have small := i.isLt
      rw [event?_control, if_neg (by omega)] at event
      cases event
  | program other named =>
      rw [event?_control, named, if_neg (mt Fin.ext other)] at event
      cases event
  | count value other owned =>
      rw [event?_count i owned, if_neg other] at event
      cases event

/-- Two chips of which one channel counts alike. -/
def CountsAlike (i : Fin 3) (p q : Pit) : Prop :=
  (p.channel i).counting = (q.channel i).counting

variable {i : Fin 3} {p q : Pit}

theorem CountsAlike.perform (h : CountsAlike i p q) (op : Op) :
    CountsAlike i (p.perform op) (q.perform op) := by
  rw [CountsAlike, channel_perform, channel_perform]
  cases op.event? i with
  | none => exact h
  | some e => exact Channel.counting_perform_congr h e

theorem CountsAlike.left_alone (h : CountsAlike i p q) {op : Op} (alone : op.LeavesAlone i) :
    CountsAlike i p (q.perform op) := by
  rw [CountsAlike, channel_perform]
  cases event : op.event? i with
  | none => exact h
  | some e =>
      obtain ⟨spares, quiet⟩ := alone.event event
      exact h.trans (Channel.counting_perform spares quiet).symm

theorem CountsAlike.standing? (h : CountsAlike i p q) (op : Op) :
    p.standing? i op = q.standing? i op := by
  cases op with
  | tick => exact congrArg some (Channel.standing_congr (h.perform .tick))
  | read | write => rfl

theorem CountsAlike.edge? (h : CountsAlike 0 p q) (op : Op) : p.edge? op = q.edge? op := by
  cases op with
  | tick =>
      have edge : p.tick.1 = q.tick.1 := by
        rw [fst_tick, fst_tick]
        exact Channel.edge_congr h
      exact congrArg some edge
  | read | write => rfl

/-- Deleting what leaves a channel alone goes unnoticed by two chips that count alike. -/
theorem Deletion.run {ops kept : List Op} (deletion : Deletion i ops kept) (h : CountsAlike i p q) :
    p.standings i kept = q.standings i ops ∧ (i = 0 → p.tickAnswers kept = q.tickAnswers ops) := by
  induction deletion generalizing p q with
  | nil => exact ⟨rfl, fun _ => rfl⟩
  | keep op _ ih =>
      obtain ⟨standings, edges⟩ := ih (h.perform op)
      refine ⟨answers_cons_congr (h.standing? op) standings, fun zero => ?_⟩
      subst zero
      exact answers_cons_congr (h.edge? op) (edges rfl)
  | @delete ops kept op alone _ ih =>
      obtain ⟨standings, edges⟩ := ih (h.left_alone alone)
      have silent : q.standing? i op = none ∧ q.edge? op = none := by
        cases alone <;> exact ⟨rfl, rfl⟩
      exact ⟨standings.trans (answers_cons_of_none silent.1 ops).symm,
        fun zero => (edges zero).trans (answers_cons_of_none silent.2 ops).symm⟩

/-- To observe the timer does not disturb it, and the channels do not disturb each other. From every
state, operations that read or latch whatever it be, or that are for other channels, can be deleted
from a sequence, and after each tick the channel stands where it did; and the same ticks of the chip
give an edge if it is channel 0. -/
theorem counting_undisturbed (p : Pit) (i : Fin 3) {ops kept : List Op}
    (deletion : Deletion i ops kept) :
    p.standings i kept = p.standings i ops ∧ (i = 0 → p.tickAnswers kept = p.tickAnswers ops) :=
  deletion.run rfl

/-- Channel 0 gets a count of three for a square wave. Before each of its bytes it is latched or
read, and the other channels are programmed, written and read. -/
def observedSetup : List Op :=
  [.write controlPort 0x36, .read 0x40, .write controlPort 0x80, .write 0x40 3,
    .write controlPort 0, .write controlPort 0xC2, .tick, .read 0x40, .write controlPort 0x54,
    .write 0x41 9, .write 0x40 0, .tick, .read 0x41, .tick, .read 0x20, .tick]

theorem counting_undisturbed_wave :
    Deletion 0 observedSetup
        [.write controlPort 0x36, .write 0x40 3, .tick, .write 0x40 0, .tick, .tick, .tick] ∧
      ({} : Pit).tickAnswers observedSetup = [false, false, true, false] ∧
      ({} : Pit).standings 0 observedSetup =
        [⟨.squareWave, .lowHigh, 0, false⟩, ⟨.squareWave, .lowHigh, 2, true⟩,
          ⟨.squareWave, .lowHigh, 2, true⟩, ⟨.squareWave, .lowHigh, 2, true⟩] := by
  have deletion : Deletion 0 observedSetup
      [.write controlPort 0x36, .write 0x40 3, .tick, .write 0x40 0, .tick, .tick, .tick] := by
    refine .keep _ (.delete (.read _) (.delete (.latch (by decide)) (.keep _ ?_)))
    refine .delete (.latch (by decide)) (.delete (.readBack (by decide)) (.keep _ ?_))
    refine .delete (.read _) (.delete (@Op.LeavesAlone.program 0 _ 1 (by decide) (by decide)) ?_)
    refine .delete (@Op.LeavesAlone.count 0 _ _ 1 (by decide) (by decide)) (.keep _ (.keep _ ?_))
    exact .delete (.read _) (.keep _ (.delete (.read _) (.keep _ .nil)))
  obtain ⟨standings, edges⟩ := counting_undisturbed {} 0 deletion
  refine ⟨deletion, ?_, ?_⟩
  · rw [← edges rfl]
    decide +kernel
  · rw [← standings]
    decide +kernel

end Pit
end RealMode
