import RealMode.Proofs.Pic.Registers

/-!
Fully nested priority over every history of the controller. A request is handed out exactly when
its line is the lowest wanted one and lies below every line in service; the lines in service, in
the order in which they were acknowledged, therefore have falling numbers, and the command that
ends the highest line ends the one that was acknowledged last.
-/

namespace RealMode
namespace Pic

/-- A controller with its lines in service, the one acknowledged last at the front. -/
structure Watched where
  pic : Pic := {}
  nested : List UInt8 := []

namespace Watched

/-- A line joins the list when it is acknowledged and leaves it when it is out of service. -/
def perform (s : Watched) (op : Op) : Watched where
  pic := s.pic.perform op
  nested :=
    (((s.pic.handedOut op).map PendingIrq.line).toList ++ s.nested).filter (s.pic.perform op).serves

/-- After these operations from power on. -/
def after (ops : List Op) : Watched := ops.foldl perform {}

/-- What the registers do not store but every operation keeps. -/
structure Sound (s : Watched) : Prop where
  sorted : s.nested.Pairwise (· < ·)
  mem_iff : ∀ line, line ∈ s.nested ↔ line ∈ lines ∧ s.pic.serves line
  offset : s.pic.vectorOffset.toNat % 8 = 0

end Watched

theorem offset_setByte {p : Pic} (h : p.vectorOffset.toNat % 8 = 0) (port : UInt16)
    (value : UInt8) :
    (p.setByte port value).vectorOffset.toNat % 8 = 0 := by
  have offset : (value &&& 0xF8).toNat % 8 = 0 := by
    rw [UInt8.toNat_and]
    have aligned := Nat.and_mod_two_pow (a := value.toNat) (b := 0xF8) (n := 3)
    simpa using aligned
  unfold setByte writeCommand writeData endCommand
  repeat' split
  all_goals first | exact h | exact offset

theorem offset_perform {p : Pic} (h : p.vectorOffset.toNat % 8 = 0) (op : Op) :
    (p.perform op).vectorOffset.toNat % 8 = 0 := by
  cases op with
  | raise _ | endOfInterrupt _ | read _ => exact h
  | acknowledge =>
      change (p.acknowledge.2).vectorOffset.toNat % 8 = 0
      rw [acknowledge]
      split <;> exact h
  | write port value => exact offset_setByte h port value

namespace Watched

theorem Sound.quiet {s : Watched} (h : s.Sound) {op : Op} (none : s.pic.handedOut op = none)
    (fewer : ∀ line ∈ lines, (s.pic.perform op).serves line → s.pic.serves line) :
    (s.perform op).Sound where
  sorted := by
    simp only [perform, none, Option.map_none, Option.toList_none, List.nil_append]
    exact h.sorted.sublist List.filter_sublist
  mem_iff line := by
    simp only [perform, none, Option.map_none, Option.toList_none, List.nil_append, List.mem_filter,
      h.mem_iff line]
    exact ⟨fun ⟨⟨isLine, _⟩, now⟩ => ⟨isLine, now⟩,
      fun ⟨isLine, now⟩ => ⟨⟨isLine, fewer line isLine now⟩, now⟩⟩
  offset := offset_perform h.offset op

theorem Sound.acknowledge {s : Watched} (h : s.Sound) : (s.perform .acknowledge).Sound := by
  by_cases due : ∃ line, s.pic.Deliverable line
  · obtain ⟨line, due⟩ := due
    obtain ⟨q, result, hands⟩ := acknowledge_of_deliverable due
    have pic : s.pic.perform .acknowledge = q := congrArg Prod.snd result
    have out : s.pic.handedOut .acknowledge = some ⟨s.pic.vectorOffset + line, line⟩ :=
      congrArg Prod.fst result
    have still : ∀ other ∈ line :: s.nested, q.serves other = true := by
      intro other member
      rcases List.mem_cons.1 member with rfl | member
      · simp [hands.serves other due.isLine]
      · obtain ⟨isLine, serves⟩ := (h.mem_iff other).1 member
        simp [hands.serves other isLine, serves]
    have nested : (s.perform .acknowledge).nested = line :: s.nested := by
      simp only [perform, out, pic]
      exact List.filter_eq_self.2 still
    -- The new line is lower than all in service, so that it belongs at the front.
    refine ⟨?_, ?_, offset_perform h.offset .acknowledge⟩
    · rw [nested]
      refine List.pairwise_cons.2 ⟨fun other member => ?_, h.sorted⟩
      obtain ⟨isLine, serves⟩ := (h.mem_iff other).1 member
      exact due.free other isLine serves
    · intro other
      change other ∈ (s.perform .acknowledge).nested ↔
        other ∈ lines ∧ (s.pic.perform .acknowledge).serves other = true
      rw [nested, pic, List.mem_cons, h.mem_iff other]
      constructor
      · rintro (rfl | ⟨isLine, serves⟩)
        · exact ⟨due.isLine, still other List.mem_cons_self⟩
        · simp [hands.serves other isLine, serves, isLine]
      · rintro ⟨isLine, serves⟩
        rw [hands.serves other isLine, Bool.or_eq_true, beq_iff_eq] at serves
        exact serves.symm.imp id fun serves => ⟨isLine, serves⟩
  · have idle := acknowledge_of_not_deliverable (not_exists.1 due)
    refine h.quiet (congrArg Prod.fst idle) fun line _ serves => ?_
    rwa [Pic.perform, idle] at serves

theorem Sound.perform {s : Watched} (h : s.Sound) (op : Op) : (s.perform op).Sound := by
  by_cases isAcknowledge : op = .acknowledge
  · rw [isAcknowledge]
    exact h.acknowledge
  · refine h.quiet ?_ fun line isLine => serves_of_serves_perform isLine isAcknowledge
    cases op <;> first | rfl | exact absurd rfl isAcknowledge

theorem sound_after (ops : List Op) : (after ops).Sound := by
  have start : Sound {} := ⟨.nil, fun line => by simp [serves], by decide⟩
  have run : ∀ s : Watched, s.Sound → (ops.foldl perform s).Sound := by
    induction ops with
    | nil => exact fun _ h => h
    | cons op ops ih => exact fun s h => ih (s.perform op) (h.perform op)
  exact run {} start

end Watched

/-- Bytes at the command port that end the highest line in service. -/
def endsHighest (value : UInt8) : Prop :=
  value &&& 0x18 = 0 ∧ value >>> 5 = 1

theorem writeCommand_of_endsHighest (p : Pic) {value : UInt8} (h : endsHighest value) :
    p.writeCommand value = p.endHighest := by
  have initialises : ∀ x : UInt8, x &&& 0x18 = 0 → ¬ (x &&& 0x10 != 0) :=
    forall_byte (by decide +kernel)
  rw [writeCommand, if_neg (initialises value h.1), if_pos (by simp [h.1]), endCommand, if_pos h.2]

/-- Fully nested mode, with the lines in service listed from the one acknowledged last on. -/
structure FullyNested (p : Pic) (nested : List UInt8) : Prop where
  /-- A request is handed out exactly when it is due. -/
  handedOut : ∀ irq, p.acknowledge.1 = some irq ↔
    p.Deliverable irq.line ∧ irq.vector = p.vectorOffset + irq.line
  handsOut : ∀ irq, p.acknowledge.1 = some irq → p.HandsOut p.acknowledge.2 irq.line
  idle : p.acknowledge.1 = none → p.acknowledge.2 = p
  offset : p.vectorOffset.toNat % 8 = 0
  /-- The vector does not wrap, and its low three bits are the line. -/
  vector : ∀ irq, p.acknowledge.1 = some irq →
    irq.vector.toNat = p.vectorOffset.toNat + irq.line.toNat ∧ irq.vector &&& 7 = irq.line
  /-- From the newest to the oldest the numbers rise. -/
  sorted : nested.Pairwise (· < ·)
  mem_iff : ∀ line, line ∈ nested ↔ line ∈ lines ∧ p.serves line
  /-- The command for the highest line ends the newest. -/
  endsNewest : ∀ value, endsHighest value → ∀ line ∈ lines,
    (p.setByte commandPort value).serves line = (p.serves line && nested.head? != some line)
  endsOnly : ∀ value, endsHighest value →
    p.setByte commandPort value =
      { p with inService := (p.setByte commandPort value).inService }

theorem handedOut_iff (p : Pic) (irq : PendingIrq) :
    p.acknowledge.1 = some irq ↔
      p.Deliverable irq.line ∧ irq.vector = p.vectorOffset + irq.line := by
  constructor
  · intro out
    by_cases due : ∃ line, p.Deliverable line
    · obtain ⟨line, due⟩ := due
      obtain ⟨q, result, _⟩ := acknowledge_of_deliverable due
      rw [result] at out
      cases out
      exact ⟨due, rfl⟩
    · rw [acknowledge_of_not_deliverable (not_exists.1 due)] at out
      exact absurd out nofun
  · rintro ⟨due, vector⟩
    obtain ⟨q, result, _⟩ := acknowledge_of_deliverable due
    rw [result, ← vector]

theorem handsOut_of_acknowledge {p : Pic} {irq : PendingIrq} (out : p.acknowledge.1 = some irq) :
    p.HandsOut p.acknowledge.2 irq.line := by
  obtain ⟨q, result, hands⟩ := acknowledge_of_deliverable ((p.handedOut_iff irq).1 out).1
  rwa [result]

theorem acknowledge_of_idle {p : Pic} (out : p.acknowledge.1 = none) : p.acknowledge.2 = p := by
  have idle : ∀ line, ¬ p.Deliverable line := by
    intro line due
    obtain ⟨q, result, _⟩ := acknowledge_of_deliverable due
    rw [result] at out
    exact absurd out nofun
  rw [acknowledge_of_not_deliverable idle]

theorem toNat_vector {offset line : UInt8} (aligned : offset.toNat % 8 = 0) (h : line ∈ lines) :
    (offset + line).toNat = offset.toNat + line.toNat ∧ (offset + line) &&& 7 = line := by
  have small := toNat_lt_of_mem_lines line h
  have bound := offset.toNat_lt
  have sum : (offset + line).toNat = offset.toNat + line.toNat := by
    rw [UInt8.toNat_add]
    omega
  refine ⟨sum, ?_⟩
  rw [← UInt8.toNat_inj, UInt8.toNat_and, sum]
  have low := Nat.and_two_pow_sub_one_eq_mod (offset.toNat + line.toNat) 3
  change (offset.toNat + line.toNat) &&& 2 ^ 3 - 1 = line.toNat
  omega

/-- In a rising list of the lines in service the first is the only one without a lower line. -/
theorem Watched.Sound.serves_endHighest {s : Watched} (h : s.Sound) {line : UInt8}
    (isLine : line ∈ lines) :
    s.pic.endHighest.serves line = (s.pic.serves line && s.nested.head? != some line) := by
  rw [Pic.serves_endHighest s.pic isLine]
  cases serves : s.pic.serves line with
  | false => rfl
  | true =>
      have member := (h.mem_iff line).2 ⟨isLine, serves⟩
      rw [Bool.true_and, Bool.true_and, Bool.eq_iff_iff, List.any_eq_true, bne_iff_ne]
      simp only [Bool.and_eq_true, decide_eq_true_eq]
      cases list : s.nested with
      | nil => simp [list] at member
      | cons first rest =>
          have sorted := h.sorted
          rw [list] at member sorted
          obtain ⟨below, _⟩ := List.pairwise_cons.1 sorted
          have front := (h.mem_iff first).1 (by rw [list]; exact List.mem_cons_self)
          simp only [List.head?_cons, ne_eq, Option.some.injEq]
          constructor
          · rintro ⟨lower, lowerIsLine, less, lowerServes⟩ rfl
            have lowerMember := (h.mem_iff lower).2 ⟨lowerIsLine, lowerServes⟩
            rw [list] at lowerMember
            rcases List.mem_cons.1 lowerMember with rfl | lowerMember
            · exact UInt8.lt_irrefl _ less
            · exact UInt8.lt_irrefl _ (UInt8.lt_trans less (below lower lowerMember))
          · intro apart
            refine ⟨first, front.1, ?_, front.2⟩
            exact below line ((List.mem_cons.1 member).resolve_left (Ne.symm apart))

/-- The controller is in fully nested mode after every history from power on. -/
theorem fully_nested_after (ops : List Op) :
    FullyNested (Watched.after ops).pic (Watched.after ops).nested := by
  have sound := Watched.sound_after ops
  have ends : ∀ value, endsHighest value →
      (Watched.after ops).pic.setByte commandPort value = (Watched.after ops).pic.endHighest :=
    fun value h => writeCommand_of_endsHighest _ h
  refine
    { handedOut := handedOut_iff _
      handsOut := fun irq => handsOut_of_acknowledge
      idle := acknowledge_of_idle
      offset := sound.offset
      vector := fun irq out => ?_
      sorted := sound.sorted
      mem_iff := sound.mem_iff
      endsNewest := fun value h line isLine => ?_
      endsOnly := fun value h => ?_ }
  · obtain ⟨due, vector⟩ := (handedOut_iff _ irq).1 out
    rw [vector]
    exact toNat_vector sound.offset due.isLine
  · rw [ends value h]
    exact sound.serves_endHighest isLine
  · rw [ends value h]
    rfl

end Pic
end RealMode
