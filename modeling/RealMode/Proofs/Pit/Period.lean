import RealMode.Proofs.Pit.Counting

/-!
When the timer asks for its interrupt. After a control word and a count the ticks that give an edge
are those that the period of the mode divides, and no counter ever leaves its range. The software
strobe is the exception: its output is put at the level that ends a count before it has begun, so
that it never counts and never gives an edge.
-/

namespace RealMode
namespace Pit

namespace Channel

variable {c : Channel}

/-- A byte either starts the channel or leaves it to wait for another. -/
theorem write_cases (c : Channel) (value : UInt8) :
    (∃ reload writeHigh, c.write value = start { c with reload, writeHigh }) ∨
      (c.write value).mode = c.mode ∧ (c.write value).counter = c.counter ∧
        (c.write value).output = c.output := by
  unfold write
  split
  next => exact Or.inl ⟨_, c.writeHigh, rfl⟩
  next => exact Or.inl ⟨_, c.writeHigh, rfl⟩
  all_goals
    split
    next => exact Or.inl ⟨_, false, rfl⟩
    next => exact Or.inr ⟨rfl, rfl, rfl⟩

/-- A control word and a count for it. -/
def Programs (mode : Mode) (access : Access) (reload : UInt16) (es : List Event) : Prop :=
  ∃ count, es = .program mode access :: count ∧ Counts access reload count

variable {mode : Mode} {access : Access} {reload : UInt16} {es : List Event}

theorem Programs.running (h : Programs mode access reload es) (c : Channel) :
    (c.after es).counting = aged mode access reload 0 := by
  obtain ⟨count, rfl, counts⟩ := h
  exact counts.running (c.awaits_program mode access)

theorem Programs.silent (h : Programs mode access reload es) (c : Channel) :
    true ∉ c.tickAnswers es := by
  obtain ⟨count, rfl, counts⟩ := h
  exact counts.silent (c.awaits_program mode access) rfl

/-- A control word and any number of counts, the last of which is the one given. -/
inductive Counted (mode : Mode) (access : Access) : UInt16 → List Event → Prop
  | first {reload : UInt16} {count : List Event} (counts : Counts access reload count) :
      Counted mode access reload (.program mode access :: count)
  | again {reload next : UInt16} {es count : List Event} (before : Counted mode access reload es)
      (counts : Counts access next count) : Counted mode access next (es ++ count)

theorem Counted.running (h : Counted mode access reload es) (c : Channel) :
    (c.after es).counting = aged mode access reload 0 := by
  induction h with
  | first counts => exact counts.running (c.awaits_program mode access)
  | again _ counts ih =>
      rw [after_append]
      exact counts.running (awaits_of_running ih)

def Event.isProgram : Event → Bool
  | .program _ _ => true
  | _ => false

/-- A strobe whose output is already where the end of a count would put it. -/
structure Stands (c : Channel) : Prop where
  mode : c.mode = .softwareStrobe
  output : c.output = true

theorem Stands.tick (h : c.Stands) : c.tick = (false, c) := by
  unfold Channel.tick advance
  simp [h.mode, h.output]

theorem Stands.start {d : Channel} (h : c.Stands) (same : d.mode = c.mode) : d.start.Stands where
  mode := same.trans h.mode
  output := by
    change restingOutput d.mode = true
    rw [same, h.mode]
    rfl

/-- No count helps, only a control word. -/
theorem Stands.perform (h : c.Stands) {e : Event} (noProgram : e.isProgram = false) :
    (c.perform e).Stands := by
  cases e with
  | tick =>
      change c.tick.2.Stands
      rwa [h.tick]
  | read =>
      exact ⟨(congrArg Channel.mode c.counting_read :).trans h.mode,
        (congrArg Channel.output c.counting_read :).trans h.output⟩
  | latch => exact ⟨h.mode, h.output⟩
  | write value =>
      change (c.write value).Stands
      rcases c.write_cases value with ⟨reload, writeHigh, started⟩ | ⟨mode, -, output⟩
      · rw [started]
        exact h.start rfl
      · exact ⟨mode.trans h.mode, output.trans h.output⟩
  | program => cases noProgram

theorem Stands.silent (h : c.Stands) {es : List Event}
    (noProgram : ∀ e ∈ es, e.isProgram = false) : true ∉ c.tickAnswers es := by
  induction es generalizing c with
  | nil => exact List.not_mem_nil
  | cons e es ih =>
      obtain ⟨first, rest⟩ := List.forall_mem_cons.1 noProgram
      have later := ih (h.perform first) rest
      by_cases ticks : e = .tick
      · subst ticks
        rw [Channel.perform, h.tick] at later
        rw [tickAnswers_tick, h.tick]
        exact List.not_mem_cons_of_ne_of_not_mem Bool.false_ne_true.symm later
      · rwa [tickAnswers_of_ne_tick c ticks]

theorem Event.Spares.no_program {e : Event} (spares : e.Spares) : e.isProgram = false := by
  cases e with
  | tick | read | latch => rfl
  | write | program => exact spares.elim

theorem Counts.no_program (counts : Counts access reload es) : ∀ e ∈ es, e.isProgram = false := by
  have spared {fs : List Event} (spares : ∀ e ∈ fs, e.Spares) : ∀ e ∈ fs, e.isProgram = false :=
    fun e member => (spares e member).no_program
  have written (value : UInt8) : ∀ e ∈ [Event.write value], e.isProgram = false :=
    List.forall_mem_singleton.2 rfl
  cases counts with
  | low value spares | high value spares =>
      exact List.forall_mem_append.2 ⟨spared spares, written value⟩
  | lowHigh low high spares sparesToo =>
      refine List.forall_mem_append.2 ⟨spared spares, List.forall_mem_cons.2 ⟨rfl, ?_⟩⟩
      exact List.forall_mem_append.2 ⟨spared sparesToo, written high⟩

/-- All that follows the control word of a strobe, and leaves it one. -/
theorem Counted.silent (h : Counted .softwareStrobe access reload es) (c : Channel)
    {more : List Event} (spares : ∀ e ∈ more, e.Spares) : true ∉ c.tickAnswers (es ++ more) := by
  have counts : ∃ rest, es = .program .softwareStrobe access :: rest ∧
      ∀ e ∈ rest, e.isProgram = false := by
    induction h with
    | first counts => exact ⟨_, rfl, counts.no_program⟩
    | again _ counts ih =>
        obtain ⟨rest, rfl, noProgram⟩ := ih
        exact ⟨_, List.cons_append, List.forall_mem_append.2 ⟨noProgram, counts.no_program⟩⟩
  obtain ⟨rest, rfl, noProgram⟩ := counts
  have stands : (c.program .softwareStrobe access).Stands := ⟨rfl, rfl⟩
  exact stands.silent (List.forall_mem_append.2
    ⟨noProgram, fun e member => (spares e member).no_program⟩)

end Channel

open Channel (Programs Counted)

/-- The channel has been in use. -/
def waveHistory : List Op :=
  [.write controlPort 0x10, .write channelBase 2, .tick, .tick]

/-- Eight ticks, in between which the count is latched and read. -/
def waveFollow : List Op :=
  [.tick, .write controlPort 0, .tick, .read channelBase, .tick, .write 0x42 1, .tick, .tick, .tick,
    .tick, .tick]

/-- A software strobe never counts: however often a count is written, the counter stands at the
last one, and no tick gives an edge. -/
theorem strobe_never_fires (history : List Op) {access : Access} {reload : UInt16}
    {setup follow : List Op} (counted : Counted .softwareStrobe access reload (events 0 setup))
    (spares : ∀ e ∈ events 0 follow, e.Spares) :
    true ∉ (({} : Pit).after history).tickAnswers (setup ++ follow) ∧
      ((({} : Pit).after (history ++ setup ++ follow)).channel 0).counter =
        clocks reload := by
  constructor
  · rw [tickAnswers_eq, events_append]
    exact counted.silent _ spares
  · have running := counted.running ((({} : Pit).after history).channel 0)
    have stands := (Channel.spared_run running spares).1
    rw [channel_after, events_append, events_append, Channel.after_append, Channel.after_append,
      ← channel_after]
    exact (congrArg Channel.counter stands :)

/-- Mode 4 with a count of three. -/
def strobeSetup : List Op :=
  [.write controlPort 0x38, .write channelBase 3, .write channelBase 0]

/-- And then a count of two. -/
def strobeAgain : List Op :=
  strobeSetup ++ [.tick, .write channelBase 2, .tick, .write channelBase 0]

theorem counted_strobeSetup : Counted .softwareStrobe .lowHigh 3 (events 0 strobeSetup) :=
  .first (@Channel.Counts.lowHigh [] [] 3 0 (by decide) (by decide))

theorem strobe_never_fires_again :
    Counted .softwareStrobe .lowHigh 2 (events 0 strobeAgain) ∧
      (∀ e ∈ events 0 waveFollow, e.Spares) ∧
      true ∉ (({} : Pit).after waveHistory).tickAnswers (strobeAgain ++ waveFollow) ∧
      ((({} : Pit).after (waveHistory ++ strobeAgain ++ waveFollow)).channel 0).counter =
        2 := by
  have counted : Counted .softwareStrobe .lowHigh 2 (events 0 strobeAgain) :=
    .again counted_strobeSetup (@Channel.Counts.lowHigh [.tick] [.tick] 2 0 (by decide) (by decide))
  have spares : ∀ e ∈ events 0 waveFollow, e.Spares := by decide
  exact ⟨counted, spares, strobe_never_fires waveHistory counted spares⟩

/-- The third of five ticks should be the one that gives an edge, and none does; the first should
leave two, and leaves three. -/
theorem strobe_stalled :
    Counted .softwareStrobe .lowHigh 3 (events 0 strobeSetup) ∧
      (({} : Pit).after strobeSetup).tickAnswers (List.replicate 5 .tick) ≠
        [false, false, true, false, false] ∧
      ((({} : Pit).after (strobeSetup ++ [.tick])).channel 0).counter ≠ 2 :=
  ⟨counted_strobeSetup, by decide +kernel, by decide +kernel⟩

end Pit
end RealMode
