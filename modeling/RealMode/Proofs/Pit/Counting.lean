import RealMode.Proofs.Pit.Channels

/-!
How a channel counts. A channel whose count has been written stands after any number of ticks where
its mode, its count and the number of ticks put it; reads and latches take no part in that. A count
runs from the last of its bytes on, and a channel that waits for a byte stands still.
-/

namespace RealMode
namespace Pit

/-- The input clocks that a reload value stands for. -/
def clocks (reload : UInt16) : Nat :=
  if reload = 0 then 0x10000 else reload.toNat

theorem clocks_pos (reload : UInt16) : 0 < clocks reload := by
  unfold clocks
  split
  next => decide
  next nonzero => exact Nat.pos_of_ne_zero fun zero => nonzero (UInt16.toNat_inj.1 zero)

/-- The ticks from one change of a square wave to the next. -/
def halfWave (n : Nat) : Nat := max 1 (n / 2)

/-- Whether the `k`-th tick after a count of `n` clocks has been written gives an edge. -/
def Mode.Fires (mode : Mode) (n k : Nat) : Prop :=
  match mode with
  | .interruptOnTerminalCount => k = n
  | .rateGenerator => n ∣ k
  | .squareWave => 2 * halfWave n ∣ k
  | .oneShot | .softwareStrobe | .hardwareStrobe => False

instance (mode : Mode) (n k : Nat) : Decidable (mode.Fires n k) :=
  match mode with
  | .interruptOnTerminalCount => inferInstanceAs (Decidable (k = n))
  | .rateGenerator => inferInstanceAs (Decidable (n ∣ k))
  | .squareWave => inferInstanceAs (Decidable (2 * halfWave n ∣ k))
  | .oneShot | .softwareStrobe | .hardwareStrobe => inferInstanceAs (Decidable False)

namespace Channel

/-- A channel without what reading it leaves behind. -/
def counting (c : Channel) : Channel :=
  { c with latched := none, readHigh := false }

theorem tick_counting (c : Channel) : c.counting.tick = (c.tick.1, c.tick.2.counting) := by
  obtain ⟨mode, access, reload, counter, latched, readHigh, writeHigh, armed, output⟩ := c
  cases armed with
  | false => rfl
  | true =>
      cases mode with
      | oneShot | hardwareStrobe => rfl
      | interruptOnTerminalCount | rateGenerator | squareWave | softwareStrobe =>
          simp only [tick, advance, counting, period, evenPeriod, if_true]
          split
          next ended => exact if_pos ended
          next going => exact if_neg going

/-- What only looks at the channel, or lets it count. -/
def Event.Spares : Event → Prop
  | .tick | .read | .latch => True
  | .write _ | .program _ _ => False

instance : DecidablePred Event.Spares
  | .tick | .read | .latch => isTrue trivial
  | .write _ | .program _ _ => isFalse id

theorem counting_read (c : Channel) : c.read.2.counting = c.counting := by
  obtain ⟨mode, access, reload, counter, latched, readHigh, writeHigh, armed, output⟩ := c
  cases access <;> cases readHigh <;> rfl

theorem counting_perform {c : Channel} {e : Event} (spares : e.Spares) (h : e ≠ .tick) :
    (c.perform e).counting = c.counting := by
  cases e with
  | tick => exact absurd rfl h
  | read => exact c.counting_read
  | latch => rfl
  | write | program => exact spares.elim

/-- A channel `k` ticks after its count has been written. -/
def aged (mode : Mode) (access : Access) (reload : UInt16) (k : Nat) : Channel where
  mode := mode
  access := access
  reload := reload
  counter := match mode with
    | .interruptOnTerminalCount => clocks reload - k
    | .rateGenerator => clocks reload - k % clocks reload
    | .squareWave => clocks reload / 2 * 2 - 2 * (k % halfWave (clocks reload))
    | .oneShot | .softwareStrobe | .hardwareStrobe => clocks reload
  armed := true
  output := match mode with
    | .interruptOnTerminalCount => decide (clocks reload ≤ k)
    | .squareWave => decide (k / halfWave (clocks reload) % 2 = 0)
    | .rateGenerator | .oneShot | .softwareStrobe | .hardwareStrobe => true

theorem succ_mod {m : Nat} (pos : 0 < m) (k : Nat) :
    (k + 1) % m = if k % m + 1 = m then 0 else k % m + 1 := by
  have below := Nat.mod_lt k pos
  have split : (k + 1) % m = (k % m + 1) % m := (Nat.mod_add_mod k m 1).symm
  rw [split]
  split
  next last => rw [last, Nat.mod_self]
  next early => exact Nat.mod_eq_of_lt (by omega)

theorem dvd_succ_iff {m : Nat} (pos : 0 < m) (k : Nat) : m ∣ k + 1 ↔ k % m + 1 = m := by
  rw [Nat.dvd_iff_mod_eq_zero, succ_mod pos]
  split <;> simp [*]

section Modes

variable (access : Access) (reload : UInt16) (k : Nat)

theorem tick_terminal : (aged .interruptOnTerminalCount access reload k).tick =
    (decide (k + 1 = clocks reload), aged .interruptOnTerminalCount access reload (k + 1)) := by
  have ticked : (aged .interruptOnTerminalCount access reload k).tick =
      if decide (clocks reload ≤ k) || clocks reload - k == 0 then
        (false, aged .interruptOnTerminalCount access reload k)
      else (clocks reload - k == 1, { aged .interruptOnTerminalCount access reload k with
        counter := clocks reload - k - 1, output := clocks reload - k == 1 }) := rfl
  rw [ticked]
  by_cases ended : clocks reload ≤ k
  · have now : clocks reload - (k + 1) = clocks reload - k := by omega
    have kept : clocks reload ≤ k + 1 := by omega
    have silent : k + 1 ≠ clocks reload := by omega
    simp [aged, ended, now, kept, silent]
  · have last : (clocks reload - k == 1) = decide (k + 1 = clocks reload) := by
      rw [Bool.eq_iff_iff, beq_iff_eq, decide_eq_true_eq]
      omega
    have output : decide (clocks reload ≤ k + 1) = decide (k + 1 = clocks reload) := by
      rw [decide_eq_decide]
      omega
    have counting : clocks reload - k ≠ 0 := by omega
    simp [aged, ended, last, output, counting, Nat.sub_sub]

theorem tick_rate : (aged .rateGenerator access reload k).tick =
    (decide (clocks reload ∣ k + 1), aged .rateGenerator access reload (k + 1)) := by
  have pos := clocks_pos reload
  have below := Nat.mod_lt k pos
  have next := succ_mod pos k
  have ticked : (aged .rateGenerator access reload k).tick =
      if clocks reload - k % clocks reload ≤ 1 then
        (true, { aged .rateGenerator access reload k with counter := clocks reload })
      else (false, { aged .rateGenerator access reload k with
        counter := clocks reload - k % clocks reload - 1 }) := rfl
  rw [ticked]
  by_cases last : k % clocks reload + 1 = clocks reload
  · rw [if_pos last] at next
    have fires := (dvd_succ_iff pos k).2 last
    rw [if_pos (by omega)]
    simp [aged, next, fires]
  · rw [if_neg last] at next
    have silent : ¬ clocks reload ∣ k + 1 := fun divides => last ((dvd_succ_iff pos k).1 divides)
    rw [if_neg (by omega)]
    simp [aged, next, silent, Nat.sub_sub]

/-- The wave turns whenever half of it is over, and rises at every second turn. -/
theorem tick_square : (aged .squareWave access reload k).tick =
    (decide (2 * halfWave (clocks reload) ∣ k + 1), aged .squareWave access reload (k + 1)) := by
  have half : halfWave (clocks reload) = max 1 (clocks reload / 2) := rfl
  have pos : 0 < halfWave (clocks reload) := by omega
  have below := Nat.mod_lt k pos
  have next := succ_mod pos k
  have ticked : (aged .squareWave access reload k).tick =
      if clocks reload / 2 * 2 - 2 * (k % halfWave (clocks reload)) ≤ 2 then
        (!decide (k / halfWave (clocks reload) % 2 = 0), { aged .squareWave access reload k with
          counter := clocks reload / 2 * 2
          output := !decide (k / halfWave (clocks reload) % 2 = 0) })
      else (false, { aged .squareWave access reload k with
        counter := clocks reload / 2 * 2 - 2 * (k % halfWave (clocks reload)) - 2 }) := rfl
  rw [ticked]
  by_cases last : k % halfWave (clocks reload) + 1 = halfWave (clocks reload)
  · rw [if_pos last] at next
    have whole := (dvd_succ_iff pos k).2 last
    have turns := Nat.succ_div_of_dvd whole
    have fires : decide (2 * halfWave (clocks reload) ∣ k + 1) =
        !decide (k / halfWave (clocks reload) % 2 = 0) := by
      rw [← decide_not, decide_eq_decide, Nat.mul_comm, ← Nat.dvd_div_iff_mul_dvd whole, turns]
      omega
    have risen : decide ((k + 1) / halfWave (clocks reload) % 2 = 0) =
        !decide (k / halfWave (clocks reload) % 2 = 0) := by
      rw [← decide_not, decide_eq_decide, turns]
      omega
    rw [if_pos (by omega), fires]
    simp only [aged, next, risen, Nat.mul_zero, Nat.sub_zero]
  · rw [if_neg last] at next
    have within : ¬ halfWave (clocks reload) ∣ k + 1 :=
      fun divides => last ((dvd_succ_iff pos k).1 divides)
    have turns := Nat.succ_div_of_not_dvd within
    have silent : ¬ 2 * halfWave (clocks reload) ∣ k + 1 :=
      fun divides => within (Nat.dvd_trans (Nat.dvd_mul_left _ 2) divides)
    rw [if_neg (by omega)]
    simp [aged, next, turns, silent, Nat.mul_add, Nat.sub_sub]

end Modes

theorem tick_aged (mode : Mode) (access : Access) (reload : UInt16) (k : Nat) :
    (aged mode access reload k).tick =
      (decide (mode.Fires (clocks reload) (k + 1)), aged mode access reload (k + 1)) := by
  cases mode with
  | interruptOnTerminalCount => exact tick_terminal access reload k
  | rateGenerator => exact tick_rate access reload k
  | squareWave => exact tick_square access reload k
  | oneShot | softwareStrobe | hardwareStrobe => rfl

/-- Reads and latches do not matter to a channel that counts, nor at which moments they come. -/
theorem spared_run {mode : Mode} {access : Access} {reload : UInt16} {k : Nat} {c : Channel}
    (running : c.counting = aged mode access reload k) {es : List Event}
    (spares : ∀ e ∈ es, e.Spares) :
    (c.after es).counting = aged mode access reload (k + es.count .tick) ∧
      c.tickAnswers es = (List.range' (k + 1) (es.count .tick)).map fun j =>
        decide (mode.Fires (clocks reload) j) := by
  induction es generalizing c k with
  | nil => exact ⟨running, rfl⟩
  | cons e es ih =>
      obtain ⟨first, rest⟩ := List.forall_mem_cons.1 spares
      by_cases ticks : e = .tick
      · subst ticks
        have ticked := c.tick_counting
        rw [running, tick_aged, Prod.mk.injEq] at ticked
        obtain ⟨count, later⟩ := ih ticked.2.symm rest
        rw [List.count_cons_self]
        refine ⟨?_, ?_⟩
        · rw [Nat.add_comm _ 1, ← Nat.add_assoc]
          exact count
        · rw [tickAnswers_tick, later, List.range'_succ, List.map_cons, ticked.1]
      · have kept := counting_perform (c := c) first ticks
        rw [List.count_cons_of_ne ticks, tickAnswers_of_ne_tick c ticks]
        exact ih (kept.trans running) rest

/-- A channel that does not run stays as it is and gives no edge. -/
theorem stopped_run {c : Channel} (stopped : c.armed = false) {es : List Event}
    (spares : ∀ e ∈ es, e.Spares) :
    (c.after es).counting = c.counting ∧ true ∉ c.tickAnswers es := by
  induction es generalizing c with
  | nil => exact ⟨rfl, List.not_mem_nil⟩
  | cons e es ih =>
      obtain ⟨first, rest⟩ := List.forall_mem_cons.1 spares
      by_cases ticks : e = .tick
      · subst ticks
        have ticked : c.tick = (false, c) := if_neg (by rw [stopped]; exact Bool.false_ne_true)
        have later := ih stopped rest
        have after : c.after (.tick :: es) = c.tick.2.after es := rfl
        rw [after, tickAnswers_tick, ticked]
        exact ⟨later.1, List.not_mem_cons_of_ne_of_not_mem nofun later.2⟩
      · have kept := counting_perform (c := c) first ticks
        have still : (c.perform e).armed = false := (congrArg armed kept :).trans stopped
        have later := ih still rest
        rw [tickAnswers_of_ne_tick c ticks]
        exact ⟨later.1.trans kept, later.2⟩

/-- A channel that takes the next byte written as the first of a count. -/
structure Awaits (mode : Mode) (access : Access) (c : Channel) : Prop where
  mode : c.mode = mode
  access : c.access = access
  writeHigh : c.writeHigh = false

section

variable {mode : Mode} {access : Access} {reload : UInt16} {c : Channel}

theorem Awaits.of_counting_eq {d : Channel} (h : Awaits mode access c)
    (same : d.counting = c.counting) : Awaits mode access d where
  mode := (congrArg Channel.mode same :).trans h.mode
  access := (congrArg Channel.access same :).trans h.access
  writeHigh := (congrArg Channel.writeHigh same :).trans h.writeHigh

theorem Awaits.tick (h : Awaits mode access c) : Awaits mode access c.tick.2 := by
  unfold Channel.tick advance
  repeat' split
  all_goals exact ⟨h.mode, h.access, h.writeHigh⟩

theorem Awaits.spared (h : Awaits mode access c) {es : List Event} (spares : ∀ e ∈ es, e.Spares) :
    Awaits mode access (c.after es) := by
  induction es generalizing c with
  | nil => exact h
  | cons e es ih =>
      obtain ⟨first, rest⟩ := List.forall_mem_cons.1 spares
      by_cases ticks : e = .tick
      · subst ticks
        exact ih h.tick rest
      · exact ih (h.of_counting_eq (counting_perform first ticks)) rest

theorem awaits_of_running {k : Nat} (h : c.counting = aged mode access reload k) :
    Awaits mode access c where
  mode := (congrArg Channel.mode h :)
  access := (congrArg Channel.access h :)
  writeHigh := (congrArg Channel.writeHigh h :)

theorem awaits_program (c : Channel) (mode : Mode) (access : Access) :
    Awaits mode access (c.program mode access) :=
  ⟨rfl, rfl, rfl⟩

theorem counting_start (h : c.writeHigh = false) :
    c.start.counting = aged c.mode c.access c.reload 0 := by
  obtain ⟨mode, access, reload, counter, latched, readHigh, writeHigh, armed, output⟩ := c
  subst h
  have pos := clocks_pos reload
  cases mode with
  | interruptOnTerminalCount =>
      have output : decide (clocks reload ≤ 0) = false := decide_eq_false (by omega)
      simp only [aged, output]
      rfl
  | rateGenerator =>
      simp only [aged, Nat.zero_mod]
      rfl
  | squareWave =>
      simp only [aged, Nat.zero_mod, Nat.zero_div]
      rfl
  | oneShot | softwareStrobe | hardwareStrobe => rfl

theorem counting_low (h : Awaits mode .low c) (value : UInt8) :
    (c.write value).counting = aged mode .low (wordOfBytes value 0) 0 := by
  obtain ⟨rfl, access, writeHigh⟩ := h
  have written : c.write value = start { c with reload := wordOfBytes value 0 } := by
    rw [write, access]
  rw [written, counting_start (c := { c with reload := wordOfBytes value 0 }) writeHigh]
  simp only [access]

theorem counting_high (h : Awaits mode .high c) (value : UInt8) :
    (c.write value).counting = aged mode .high (wordOfBytes 0 value) 0 := by
  obtain ⟨rfl, access, writeHigh⟩ := h
  have written : c.write value = start { c with reload := wordOfBytes 0 value } := by
    rw [write, access]
  rw [written, counting_start (c := { c with reload := wordOfBytes 0 value }) writeHigh]
  simp only [access]

/-- A channel that has been stopped by the first of two bytes. -/
structure HalfWritten (mode : Mode) (low : UInt8) (c : Channel) : Prop where
  mode : c.mode = mode
  access : c.access = .lowHigh
  writeHigh : c.writeHigh = true
  low : lowByte c.reload = low
  armed : c.armed = false

theorem Awaits.halfWritten (h : Awaits mode .lowHigh c) (low : UInt8) :
    HalfWritten mode low (c.write low) := by
  have written : c.write low = { c with
      reload := wordOfBytes low (highByte c.reload), writeHigh := true, armed := false } := by
    rw [write, h.access]
    simp [h.writeHigh]
  rw [written]
  exact ⟨h.mode, h.access, rfl, lowByte_wordOfBytes _ _, rfl⟩

theorem HalfWritten.of_counting_eq {low : UInt8} {d : Channel} (h : HalfWritten mode low c)
    (same : d.counting = c.counting) : HalfWritten mode low d where
  mode := (congrArg Channel.mode same :).trans h.mode
  access := (congrArg Channel.access same :).trans h.access
  writeHigh := (congrArg Channel.writeHigh same :).trans h.writeHigh
  low := (congrArg (fun d => lowByte (Channel.reload d)) same :).trans h.low
  armed := (congrArg Channel.armed same :).trans h.armed

theorem HalfWritten.counting_write {low : UInt8} (h : HalfWritten mode low c) (high : UInt8) :
    (c.write high).counting = aged mode .lowHigh (wordOfBytes low high) 0 := by
  obtain ⟨rfl, access, writeHigh, rfl, -⟩ := h
  have written : c.write high = start { c with
      reload := wordOfBytes (lowByte c.reload) high, writeHigh := false } := by
    rw [write, access]
    simp [writeHigh]
  rw [written, counting_start rfl]
  simp only [access]

/-- Events that write a count in full, its bytes in order, with what spares the channel in between. -/
inductive Counts : Access → UInt16 → List Event → Prop
  | low {before : List Event} (value : UInt8) (spares : ∀ e ∈ before, e.Spares) :
      Counts .low (wordOfBytes value 0) (before ++ [.write value])
  | high {before : List Event} (value : UInt8) (spares : ∀ e ∈ before, e.Spares) :
      Counts .high (wordOfBytes 0 value) (before ++ [.write value])
  | lowHigh {before between : List Event} (low high : UInt8) (spares : ∀ e ∈ before, e.Spares)
      (sparesToo : ∀ e ∈ between, e.Spares) :
      Counts .lowHigh (wordOfBytes low high) (before ++ .write low :: (between ++ [.write high]))

/-- A count that has been written in full runs from its last byte on. -/
theorem Counts.running {es : List Event} (counts : Counts access reload es)
    (awaits : Awaits mode access c) : (c.after es).counting = aged mode access reload 0 := by
  cases counts with
  | low value spares =>
      rw [after_append]
      exact counting_low (awaits.spared spares) value
  | high value spares =>
      rw [after_append]
      exact counting_high (awaits.spared spares) value
  | lowHigh low high spares sparesToo =>
      rw [after_append]
      have half := (awaits.spared spares).halfWritten low
      have still := half.of_counting_eq (stopped_run half.armed sparesToo).1
      change (((c.after _).write low).after (_ ++ [.write high])).counting = _
      rw [after_append]
      exact still.counting_write high

/-- A channel that does not run when the count is begun gives no edge before the count is over. -/
theorem Counts.silent {es : List Event} (counts : Counts access reload es)
    (awaits : Awaits mode access c) (stopped : c.armed = false) : true ∉ c.tickAnswers es := by
  cases counts with
  | low value spares | high value spares =>
      rw [tickAnswers_append, List.mem_append]
      exact not_or_intro (stopped_run stopped spares).2 List.not_mem_nil
  | @lowHigh before between low high spares sparesToo =>
      have half := (awaits.spared spares).halfWritten low
      have rest : true ∉ ((c.after before).write low).tickAnswers (between ++ [.write high]) := by
        rw [tickAnswers_append, List.mem_append]
        exact not_or_intro (stopped_run half.armed sparesToo).2 List.not_mem_nil
      rw [tickAnswers_append, List.mem_append]
      exact not_or_intro (stopped_run stopped spares).2 rest

end

end Channel
end Pit
end RealMode
