import Mathlib.Data.List.Infix
import RealMode.Proofs.Pic.Priority

/-!
Requests over every history of the controller. The bit of a line is set when the line is raised and
cleared when its request is handed out, and nothing else touches it; so a request is never lost, and
no line is handed out that has not been raised since it was handed out before.
-/

namespace RealMode
namespace Pic

/-- An operation on the controller with its answer. -/
structure Entry where
  op : Op
  answer : Option PendingIrq

namespace Entry

def raises (e : Entry) (line : UInt8) : Bool :=
  match e.op with
  | .raise raised => raised.number == line
  | _ => false

/-- Whether the request of this line has been handed out. -/
def returns (e : Entry) (line : UInt8) : Bool :=
  e.answer.any (·.line == line)

end Entry

/-- A controller with all that has been done to it from power on, the newest at the front. -/
structure Observed where
  pic : Pic := {}
  entries : List Entry := []

/-- What has been done since the line was last handed out, or since power on. -/
def sinceReturned (line : UInt8) (entries : List Entry) : List Entry :=
  entries.takeWhile fun e => !e.returns line

def RaisedSince (line : UInt8) (entries : List Entry) : Prop :=
  ∃ e ∈ sinceReturned line entries, e.raises line = true

theorem raisedSince_cons {line : UInt8} {e : Entry} {older : List Entry} :
    RaisedSince line (e :: older) ↔
      e.returns line = false ∧ (e.raises line = true ∨ RaisedSince line older) := by
  rw [RaisedSince, sinceReturned, List.takeWhile_cons]
  cases e.returns line with
  | true => simp
  | false => simp [RaisedSince, sinceReturned]

theorem holds_bit_number (register : UInt8) (raised : IrqLine) {line : UInt8} (h : line ∈ lines) :
    holds (register ||| bit raised.number) line = (holds register line || raised.number == line) := by
  have isLine : raised.number ∈ lines := by cases raised <;> decide
  rw [holds_or_bit register isLine h, Bool.beq_comm]

theorem requests_setByte (p : Pic) (port : UInt16) (value : UInt8) :
    (p.setByte port value).request = p.request := by
  unfold setByte writeCommand writeData endCommand
  repeat' split
  all_goals rfl

theorem requests_acknowledge (p : Pic) {line : UInt8} (h : line ∈ lines) :
    p.acknowledge.2.requests line =
      (p.requests line && !p.acknowledge.1.any (·.line == line)) := by
  by_cases due : ∃ first, p.Deliverable first
  · obtain ⟨first, due⟩ := due
    obtain ⟨q, result, hands⟩ := acknowledge_of_deliverable due
    rw [result, hands.requests line h, Option.any_some, Bool.beq_comm]
    rfl
  · rw [acknowledge_of_not_deliverable (not_exists.1 due), Option.any_none, Bool.not_false,
      Bool.and_true]

/-- An operation leaves a line requested if it raises the line, or finds it requested and does not
hand it out. -/
theorem requests_perform (p : Pic) (op : Op) {line : UInt8} (h : line ∈ lines) :
    (p.perform op).requests line =
      (!Entry.returns ⟨op, p.handedOut op⟩ line &&
        (Entry.raises ⟨op, p.handedOut op⟩ line || p.requests line)) := by
  cases op with
  | raise raised =>
      change holds (p.request ||| bit raised.number) line = (raised.number == line || p.requests line)
      rw [holds_bit_number p.request raised h, Bool.or_comm]
      rfl
  | acknowledge =>
      change p.acknowledge.2.requests line = (!_ && p.requests line)
      rw [requests_acknowledge p h, Bool.and_comm]
      rfl
  | endOfInterrupt _ | read _ => rfl
  | write port value =>
      change holds (p.setByte port value).request line = p.requests line
      rw [requests_setByte]
      rfl

theorem requests_kept {p : Pic} {op : Op} {line : UInt8} (h : line ∈ lines)
    (requested : p.requests line = true)
    (kept : Entry.returns ⟨op, p.handedOut op⟩ line = false) :
    (p.perform op).requests line = true := by
  rw [requests_perform p op h, kept, requested, Bool.or_true]
  rfl

namespace Observed

def perform (s : Observed) (op : Op) : Observed where
  pic := s.pic.perform op
  entries := ⟨op, s.pic.handedOut op⟩ :: s.entries

/-- After these operations from power on. -/
def after (ops : List Op) : Observed := ops.foldl perform {}

/-- The requests of a history and its controller are those that have been raised and not yet been
handed out. -/
structure Accounted (s : Observed) : Prop where
  requests_iff : ∀ line ∈ lines, s.pic.requests line = true ↔ RaisedSince line s.entries
  /-- What is handed out has been raised since it was handed out before. -/
  earned : ∀ e older, e :: older <:+ s.entries → ∀ line, e.returns line = true →
    RaisedSince line older
  /-- A line is handed out at most as often as it is raised, and one more raise is left for a
  request that is pending. -/
  counted : ∀ line ∈ lines, s.entries.countP (·.returns line) + (s.pic.requests line).toNat ≤
    s.entries.countP (·.raises line)
  /-- Whatever is done next, a request stays unless it is handed out itself. -/
  kept : ∀ op, ∀ line ∈ lines, s.pic.requests line = true →
    Entry.returns ⟨op, s.pic.handedOut op⟩ line = false → (s.pic.perform op).requests line = true

theorem accounted_start : Accounted {} where
  requests_iff line _ := by simp [requests, RaisedSince, sinceReturned]
  earned e older suffix := by simp at suffix
  counted line _ := by simp [requests]
  kept _ _ := requests_kept

/-- Only a request that is pending is handed out. -/
theorem requests_of_returns {p : Pic} {op : Op} {line : UInt8}
    (returned : Entry.returns ⟨op, p.handedOut op⟩ line = true) :
    line ∈ lines ∧ p.requests line = true := by
  cases op with
  | acknowledge =>
      cases out : p.acknowledge.1 with
      | none =>
          rw [Entry.returns, handedOut, out] at returned
          cases returned
      | some irq =>
          rw [Entry.returns, handedOut, out, Option.any_some, beq_iff_eq] at returned
          obtain ⟨due, _⟩ := (p.handedOut_iff irq).1 out
          rw [← returned]
          exact ⟨due.isLine, (Bool.and_eq_true_iff.1 due.wanted).1⟩
  | _ => cases returned

theorem Accounted.perform {s : Observed} (h : s.Accounted) (op : Op) : (s.perform op).Accounted where
  requests_iff line isLine := by
    change (s.pic.perform op).requests line = true ↔ RaisedSince line (_ :: s.entries)
    rw [requests_perform s.pic op isLine, raisedSince_cons, Bool.and_eq_true, Bool.or_eq_true,
      Bool.not_eq_true', h.requests_iff line isLine]
  earned e older suffix line returned := by
    rcases List.suffix_cons_iff.1 suffix with same | suffix
    · cases same
      obtain ⟨isLine, requested⟩ := requests_of_returns returned
      exact (h.requests_iff line isLine).1 requested
    · exact h.earned e older suffix line returned
  counted line isLine := by
    have before := h.counted line isLine
    change List.countP _ (_ :: s.entries) + ((s.pic.perform op).requests line).toNat ≤
      List.countP _ (_ :: s.entries)
    rw [requests_perform s.pic op isLine, List.countP_cons, List.countP_cons]
    cases returned : Entry.returns ⟨op, s.pic.handedOut op⟩ line with
    | true =>
        rw [(requests_of_returns returned).2, Bool.toNat_true] at before
        rw [Bool.not_true, Bool.false_and, Bool.toNat_false, if_pos rfl]
        omega
    | false =>
        rw [Bool.not_false, Bool.true_and, if_neg Bool.false_ne_true]
        cases Entry.raises ⟨op, s.pic.handedOut op⟩ line with
        | true =>
            rw [Bool.true_or, Bool.toNat_true, if_pos rfl]
            omega
        | false =>
            rw [Bool.false_or, if_neg Bool.false_ne_true]
            omega
  kept _ _ := requests_kept

end Observed

/-- After every history from power on a line is requested exactly if it has been raised since it was
last handed out. -/
theorem requests_accounted (ops : List Op) : (Observed.after ops).Accounted :=
  List.foldlRecOn ops Observed.perform Observed.accounted_start fun _ h op _ => h.perform op

/-- An initialisation that masks all lines in the end keeps the request for later. -/
example :
    let init : List Op := [.raise .com2, .write commandPort 0x13, .write dataPort 0x20,
      .write dataPort 0x01, .write dataPort 0xFF]
    (Observed.after init).pic.acknowledge.1 = none ∧
      (Observed.after (init ++ [.write dataPort 0])).pic.acknowledge.1 = some ⟨0x23, 3⟩ := by
  decide

end Pic
end RealMode
