import RealMode.Proofs.Pit.Channels

/-!
Reading a count that goes on. A latched value is given out byte by byte while the counter runs, and
the last byte gives it up; from then on reads see the counter itself, and see it whole if no tick
comes in between.
-/

namespace RealMode
namespace Pit

/-- The number of reads that a count takes. -/
def Access.width : Access → Nat
  | .low | .high => 1
  | .lowHigh | .latch => 2

/-- What reading a number gives, byte by byte. -/
def Access.bytes (access : Access) (n : Nat) : List UInt8 :=
  match access with
  | .low => [.ofNat (n % 256)]
  | .high => [.ofNat (n / 256)]
  | .lowHigh | .latch => [.ofNat (n % 256), .ofNat (n / 256)]

theorem Access.length_bytes (access : Access) (n : Nat) : (access.bytes n).length = access.width := by
  cases access <;> rfl

theorem lowByte_toUInt16 (n : Nat) : lowByte n.toUInt16 = .ofNat (n % 0x10000 % 256) := by
  rw [← UInt8.toNat_inj, toNat_lowByte, Nat.toUInt16_eq, UInt16.toNat_ofNat', UInt8.toNat_ofNat']
  omega

theorem highByte_toUInt16 (n : Nat) : highByte n.toUInt16 = .ofNat (n % 0x10000 / 256) := by
  rw [← UInt8.toNat_inj, toNat_highByte, Nat.toUInt16_eq, UInt16.toNat_ofNat', UInt8.toNat_ofNat']
  omega

namespace Channel

/-- No word has been read by half. -/
def Whole (c : Channel) : Prop := c.access.width = 2 → c.readHigh = false

/-- What is still to be read of a word, or of the latched value. -/
def pending (c : Channel) : List UInt8 :=
  let value := c.latched.getD c.count
  match c.access with
  | .low => [lowByte value]
  | .high => [highByte value]
  | .lowHigh | .latch =>
    if c.readHigh then [highByte value] else [lowByte value, highByte value]

theorem bytes_counter (c : Channel) (access : Access) :
    access.bytes (c.counter % 0x10000) =
      match access with
      | .low => [lowByte c.count]
      | .high => [highByte c.count]
      | .lowHigh | .latch => [lowByte c.count, highByte c.count] := by
  rw [count, lowByte_toUInt16, highByte_toUInt16]
  cases access <;> rfl

theorem pending_of_whole {c : Channel} (whole : c.Whole) (now : c.latched.getD c.count = c.count) :
    c.pending = c.access.bytes (c.counter % 0x10000) := by
  rw [bytes_counter, pending, now]
  cases access : c.access with
  | low | high => rfl
  | lowHigh | latch =>
      have unread : c.readHigh = false := whole (by rw [access]; rfl)
      simp [unread]

/-- What a read sees of a channel apart from the running counter. -/
structure SameView (c d : Channel) : Prop where
  access : d.access = c.access
  latched : d.latched = c.latched
  readHigh : d.readHigh = c.readHigh

theorem sameView_tick (c : Channel) : SameView c c.tick.2 := by
  unfold tick advance
  repeat' split
  all_goals exact ⟨rfl, rfl, rfl⟩

theorem SameView.trans {c d e : Channel} (h : SameView c d) (g : SameView d e) : SameView c e :=
  ⟨g.access.trans h.access, g.latched.trans h.latched, g.readHigh.trans h.readHigh⟩

theorem SameView.pending {c d : Channel} (h : SameView c d) (held : c.latched ≠ none) :
    d.pending = c.pending := by
  obtain ⟨value, latched⟩ := Option.ne_none_iff_exists'.1 held
  unfold Channel.pending
  rw [h.access, h.readHigh, h.latched, latched]
  rfl

theorem ticks_run (c : Channel) {es : List Event} (ticks : ∀ e ∈ es, e = .tick) :
    SameView c (c.after es) ∧ c.bytesRead es = [] := by
  induction es generalizing c with
  | nil => exact ⟨⟨rfl, rfl, rfl⟩, rfl⟩
  | cons e es ih =>
      obtain ⟨rfl, rest⟩ := List.forall_mem_cons.1 ticks
      obtain ⟨view, bytes⟩ := ih c.tick.2 rest
      exact ⟨c.sameView_tick.trans view, bytes⟩

/-- Nothing is latched, and nothing half read. -/
structure Released (c d : Channel) : Prop where
  access : d.access = c.access
  latched : d.latched = none
  whole : d.Whole

/-- A read gives the next byte of what is pending. It leaves the others pending, and with the last
one it gives the latched value up. -/
theorem pending_read (c : Channel) :
    (c.pending = [c.read.1] ∧ Released c c.read.2) ∨
      (c.pending = c.read.1 :: c.read.2.pending ∧ c.read.2.latched = c.latched ∧
        c.read.2.access = c.access) := by
  obtain ⟨mode, access, reload, counter, latched, readHigh, writeHigh, armed, output⟩ := c
  cases access <;> cases readHigh
  case low.false | low.true | high.false | high.true => exact Or.inl ⟨rfl, rfl, rfl, nofun⟩
  case lowHigh.true | latch.true => exact Or.inl ⟨rfl, rfl, rfl, fun _ => rfl⟩
  case lowHigh.false | latch.false => exact Or.inr ⟨rfl, rfl, rfl⟩

theorem Released.since {b c d : Channel} (h : Released c d) (same : c.access = b.access) :
    Released b d :=
  ⟨h.access.trans same, h.latched, h.whole⟩

theorem Released.ticks {c d : Channel} (h : Released c d) {es : List Event}
    (ticks : ∀ e ∈ es, e = .tick) : Released c (d.after es) := by
  have view := (d.ticks_run ticks).1
  refine ⟨view.access.trans h.access, view.latched.trans h.latched, fun wide => ?_⟩
  rw [view.access] at wide
  exact view.readHigh.trans (h.whole wide)

theorem pending_ne_nil (c : Channel) : c.pending ≠ [] := by
  rcases c.pending_read with ⟨last, -⟩ | ⟨more, -⟩
  · exact last ▸ List.cons_ne_nil _ _
  · exact more ▸ List.cons_ne_nil _ _

/-- As many reads as there are bytes pending give these and nothing else, if the value is latched or
the counter stands still. -/
theorem bytesRead_pending {c : Channel} {es : List Event} (only : ∀ e ∈ es, e = .tick ∨ e = .read)
    (held : c.latched ≠ none ∨ .tick ∉ es) (reads : es.count .read = c.pending.length) :
    c.bytesRead es = c.pending ∧ Released c (c.after es) := by
  induction es generalizing c with
  | nil => exact absurd (List.length_eq_zero_iff.1 reads.symm) c.pending_ne_nil
  | cons e es ih =>
      obtain ⟨first, rest⟩ := List.forall_mem_cons.1 only
      rcases first with rfl | rfl
      · have latched : c.latched ≠ none := held.resolve_right fun none => none List.mem_cons_self
        have view := c.sameView_tick
        have same := view.pending latched
        have apart : Event.tick ≠ Event.read := nofun
        rw [List.count_cons_of_ne apart, ← same] at reads
        obtain ⟨bytes, released⟩ := ih rest (Or.inl (view.latched ▸ latched)) reads
        exact ⟨bytes.trans same, released.since view.access⟩
      · rw [List.count_cons_self] at reads
        have bytes : c.bytesRead (.read :: es) = c.read.1 :: c.read.2.bytesRead es := rfl
        rcases c.pending_read with ⟨last, released⟩ | ⟨more, latched, access⟩
        · have none : Event.read ∉ es := by
            rw [last, List.length_singleton] at reads
            exact List.count_eq_zero.1 (by omega)
          have ticks : ∀ e ∈ es, e = .tick := fun e member =>
            (rest e member).resolve_right fun read => none (read ▸ member)
          rw [bytes, (c.read.2.ticks_run ticks).2, last]
          exact ⟨rfl, released.ticks ticks⟩
        · rw [more, List.length_cons, Nat.add_right_cancel_iff] at reads
          have still : c.read.2.latched ≠ none ∨ .tick ∉ es :=
            held.imp (latched ▸ ·) (mt (List.mem_cons_of_mem _))
          obtain ⟨rest, released⟩ := ih rest still reads
          rw [bytes, rest, more]
          exact ⟨rfl, released.since access⟩

/-- A latched channel gives the counter as it was, however long it takes to read it. -/
theorem bytesRead_latch (c : Channel) {es : List Event} (whole : c.Whole)
    (only : ∀ e ∈ es, e = .tick ∨ e = .read) (reads : es.count .read = c.access.width) :
    c.latch.bytesRead es = c.access.bytes (c.counter % 0x10000) ∧
      Released c (c.latch.after es) := by
  have pending : c.latch.pending = c.access.bytes (c.counter % 0x10000) :=
    pending_of_whole (c := c.latch) whole rfl
  have held : c.latch.latched ≠ none ∨ .tick ∉ es := Or.inl nofun
  rw [← Access.length_bytes, ← pending] at reads
  obtain ⟨bytes, released⟩ := bytesRead_pending only held reads
  exact ⟨bytes.trans pending, released.since rfl⟩

/-- With nothing latched, reads see the counter. -/
theorem Released.bytesRead {c d : Channel} (h : Released c d) :
    d.bytesRead (.replicate c.access.width .read) = c.access.bytes (d.counter % 0x10000) := by
  have pending : d.pending = c.access.bytes (d.counter % 0x10000) := by
    rw [← h.access]
    exact pending_of_whole h.whole (by rw [h.latched]; rfl)
  have reads : (List.replicate c.access.width Event.read).count .read = d.pending.length := by
    rw [List.count_replicate_self, pending, Access.length_bytes]
  have only : ∀ e ∈ List.replicate c.access.width Event.read, e = .tick ∨ e = .read :=
    fun _ member => Or.inr (List.eq_of_mem_replicate member)
  have still : .tick ∉ List.replicate c.access.width Event.read :=
    fun member => nomatch List.eq_of_mem_replicate member
  exact (bytesRead_pending only (Or.inr still) reads).1.trans pending

end Channel

/-- A latched count is read untorn. After the command to latch a channel, with any ticks and any
business of the other channels before and between, as many reads as a count takes give the counter
as it was at the command, and give the latched value up. Once they have, and after any wait, so many
reads with no tick in between give the counter as it is by then. -/
theorem latched_count_untorn (p : Pit) (i : Fin 3) {ops : List Op} {between : List Channel.Event}
    (whole : (p.channel i).Whole) (latch : events i ops = .latch :: between)
    (only : ∀ e ∈ between, e = .tick ∨ e = .read)
    (reads : between.count .read = (p.channel i).access.width) :
    bytesRead i p ops = (p.channel i).access.bytes ((p.channel i).counter % 0x10000) ∧
      ((p.after ops).channel i).latched = none ∧
      ∀ wait pair : List Op, (∀ e ∈ events i wait, e = .tick) →
        events i pair = List.replicate (p.channel i).access.width .read →
        bytesRead i (p.after (ops ++ wait)) pair =
          (p.channel i).access.bytes (((p.after (ops ++ wait)).channel i).counter % 0x10000) := by
  obtain ⟨bytes, released⟩ := (p.channel i).bytesRead_latch whole only reads
  have after : (p.after ops).channel i = (p.channel i).latch.after between := by
    rw [channel_after, latch]
    rfl
  rw [bytesRead_eq, latch, after]
  refine ⟨bytes, released.latched, fun wait pair waits pairs => ?_⟩
  have later : (p.after (ops ++ wait)).channel i =
      ((p.channel i).latch.after between).after (events i wait) := by
    rw [channel_after, events_append, Channel.after_append, ← channel_after, after]
  rw [bytesRead_eq, pairs, later]
  exact (released.ticks waits).bytesRead

/-- A channel that counts from 1000 and has gone two clocks of it. -/
def running : Pit :=
  ({} : Pit).after
    [.write controlPort 0x74, .write 0x41 0xE8, .write 0x41 0x03, .tick, .tick]

/-- The count is latched and read. Meanwhile the clock goes on, and the other channels are latched,
read and written. -/
def latchAndRead : List Op :=
  [.write controlPort 0x40, .tick, .write controlPort 0x80, .read 0x41, .tick, .read 0x42,
    .write 0x40 7, .tick, .read 0x41]

theorem latched_count_untorn_running :
    (running.channel 1).Whole ∧
      events 1 latchAndRead = [.latch, .tick, .read, .tick, .tick, .read] ∧
      bytesRead 1 running latchAndRead = [0xE6, 0x03] ∧
      bytesRead 1 (running.after (latchAndRead ++ [.tick])) [.read 0x41, .read 0x41] =
        [0xE2, 0x03] := by
  have whole : (running.channel 1).Whole := fun _ => by decide +kernel
  have latch : events 1 latchAndRead = [.latch, .tick, .read, .tick, .tick, .read] := by
    decide +kernel
  obtain ⟨bytes, -, live⟩ :=
    latched_count_untorn running 1 whole latch (by decide) (by decide +kernel)
  have ticks : ∀ e ∈ events 1 [.tick], e = .tick := by decide
  refine ⟨whole, latch, bytes.trans (by decide +kernel), ?_⟩
  exact (live [.tick] [.read 0x41, .read 0x41] ticks (by decide +kernel)).trans (by decide +kernel)

end Pit
end RealMode
