import Mathlib.Data.Bool.AllAny
import Mathlib.Data.Nat.Bitwise
import RealMode.Device.Pic

/-!
The controller seen line by line: what each operation does to the bit of a line in the registers,
and which line is handed out next. Operations of the host, the processor and a running program are
the constructors of `Op`, so that a history of the controller is a list of them.
-/

namespace RealMode
namespace Pic

theorem toNat_lt_of_mem_lines : ∀ line ∈ lines, line.toNat < 8 :=
  List.all_iff_forall_prop.1 (by decide)

theorem forall_line {P : UInt8 → Prop} (h : ∀ n < 8, P (.ofNat n)) : ∀ line ∈ lines, P line := by
  intro line member
  have found := h line.toNat (toNat_lt_of_mem_lines line member)
  rwa [UInt8.ofNat_toNat] at found

/-- Whether a register has the bit of a line. -/
def holds (register line : UInt8) : Bool :=
  register &&& bit line != 0

def requests (p : Pic) (line : UInt8) : Bool :=
  holds p.request line

def serves (p : Pic) (line : UInt8) : Bool :=
  holds p.inService line

def wants (p : Pic) (line : UInt8) : Bool :=
  p.requests line && !holds p.mask line

theorem toNat_bit {line : UInt8} (h : line ∈ lines) : (bit line).toNat = 2 ^ line.toNat := by
  have each : ∀ line ∈ lines, (bit line).toNat = 2 ^ line.toNat := forall_line (by decide)
  exact each line h

theorem and_seven {line : UInt8} (h : line ∈ lines) : line &&& 7 = line := by
  have each : ∀ line ∈ lines, line &&& 7 = line := forall_line (by decide)
  exact each line h

theorem holds_eq_testBit (register : UInt8) {line : UInt8} (h : line ∈ lines) :
    holds register line = register.toNat.testBit line.toNat := by
  have unfolded : holds register line = true ↔ (register &&& bit line).toNat ≠ 0 := by
    rw [holds, bne_iff_ne, ne_eq, ne_eq, ← UInt8.toNat_inj, UInt8.toNat_zero]
  rw [Bool.eq_iff_iff, unfolded, UInt8.toNat_and, toNat_bit h, Nat.and_two_pow]
  cases register.toNat.testBit line.toNat <;> simp

@[simp] theorem holds_zero (line : UInt8) : holds 0 line = false := by
  simp [holds]

theorem holds_or_bit (register : UInt8) {line other : UInt8} (h : line ∈ lines)
    (ho : other ∈ lines) :
    holds (register ||| bit line) other = (holds register other || other == line) := by
  rw [holds_eq_testBit _ ho, holds_eq_testBit _ ho, UInt8.toNat_or, Nat.testBit_or, toNat_bit h,
    Nat.testBit_two_pow]
  congr 1
  rw [Bool.eq_iff_iff, decide_eq_true_eq, beq_iff_eq, ← UInt8.toNat_inj]
  exact eq_comm

theorem holds_and_not_bit (register : UInt8) {line other : UInt8} (h : line ∈ lines)
    (ho : other ∈ lines) :
    holds (register &&& ~~~bit line) other = (holds register other && other != line) := by
  have pairs : ∀ m < 8, ∀ n < 8, (~~~bit (.ofNat m)).toNat.testBit (UInt8.ofNat n).toNat =
      (UInt8.ofNat n != .ofNat m) := by decide
  have complement : ∀ line ∈ lines, ∀ other ∈ lines,
      (~~~bit line).toNat.testBit other.toNat = (other != line) :=
    forall_line fun m hm => forall_line fun n hn => pairs m hm n hn
  rw [holds_eq_testBit _ ho, holds_eq_testBit _ ho, UInt8.toNat_and, Nat.testBit_and,
    complement line h other ho]

theorem holds_and_pred (register : UInt8) {line : UInt8} (h : line ∈ lines) :
    holds (register &&& (register - 1)) line =
      (holds register line && lines.any fun lower => lower < line && holds register lower) := by
  -- Taking one away flips the lowest bit that is set and the clear ones below it.
  have pairs : ∀ m < 256, ∀ n < 8, holds (.ofNat m &&& (.ofNat m - 1)) (.ofNat n) =
      (holds (.ofNat m) (.ofNat n) &&
        lines.any fun lower => lower < .ofNat n && holds (.ofNat m) lower) := by decide +kernel
  have flips : ∀ register : UInt8, ∀ line ∈ lines, holds (register &&& (register - 1)) line =
      (holds register line && lines.any fun lower => lower < line && holds register lower) :=
    forall_byte fun m hm => forall_line fun n hn => pairs m hm n hn
  exact flips register line h

/-- Of several lines the one that is handed out is wanted, and no line up to it is in service. -/
theorem deliverable_eq_some_iff (p : Pic) (line : UInt8) {among : List UInt8}
    (sorted : among.Pairwise (· < ·)) :
    p.deliverable among = some line ↔
      (line ∈ among ∧ p.wants line) ∧ (∀ other ∈ among, p.wants other → line ≤ other) ∧
        ∀ other ∈ among, p.serves other → line < other := by
  induction among with
  | nil => simp [deliverable]
  | cons first rest ih =>
      obtain ⟨below, sorted⟩ := List.pairwise_cons.1 sorted
      have unfolded : p.deliverable (first :: rest) =
          if p.serves first then none
          else if p.wants first then some first
          else p.deliverable rest := by
        simp only [deliverable, wants, requests, serves, holds, bne, Bool.not_not]
      have irrefl : ¬ first < first := UInt8.lt_irrefl first
      rw [unfolded]
      by_cases busy : p.serves first = true
      · rw [if_pos busy]
        refine ⟨nofun, fun ⟨⟨member, _⟩, _, free⟩ => ?_⟩
        have early := free first List.mem_cons_self busy
        rcases List.mem_cons.1 member with rfl | member
        · exact absurd early irrefl
        · exact absurd (UInt8.lt_trans early (below line member)) (UInt8.lt_irrefl line)
      · rw [if_neg busy]
        by_cases wanted : p.wants first = true
        · rw [if_pos wanted]
          constructor
          · intro same
            cases same
            refine ⟨⟨List.mem_cons_self, wanted⟩, fun other member _ => ?_,
              fun other member serves => ?_⟩
            · rcases List.mem_cons.1 member with rfl | member
              · exact UInt8.le_refl _
              · exact UInt8.le_of_lt (below other member)
            · rcases List.mem_cons.1 member with rfl | member
              · exact absurd serves busy
              · exact below other member
          · rintro ⟨⟨member, _⟩, lowest, _⟩
            have early := lowest first List.mem_cons_self wanted
            rcases List.mem_cons.1 member with rfl | member
            · rfl
            · exact absurd (UInt8.lt_of_lt_of_le (below line member) early) irrefl
        · rw [if_neg wanted, ih sorted]
          simp only [List.mem_cons, forall_eq_or_imp, busy, wanted, false_implies, true_and,
            Bool.false_eq_true]
          refine and_congr_left fun _ => and_congr_left fun isWanted => ?_
          refine ⟨Or.inr, fun member => member.resolve_left ?_⟩
          rintro rfl
          exact wanted isWanted

theorem lines_sorted : lines.Pairwise (· < ·) := by decide

/-- The line whose request is due: the lowest of the wanted lines, unless a line up to it is in
service. -/
structure Deliverable (p : Pic) (line : UInt8) : Prop where
  isLine : line ∈ lines
  wanted : p.wants line
  lowest : ∀ other ∈ lines, p.wants other → line ≤ other
  free : ∀ other ∈ lines, p.serves other → line < other

/-- The registers before and after the request of a line is handed out. -/
structure HandsOut (p q : Pic) (line : UInt8) : Prop where
  requests : ∀ other ∈ lines, q.requests other = (p.requests other && other != line)
  serves : ∀ other ∈ lines, q.serves other = (p.serves other || other == line)
  rest : q = { p with request := q.request, inService := q.inService }

theorem deliverable_lines_iff (p : Pic) (line : UInt8) :
    p.deliverable lines = some line ↔ p.Deliverable line := by
  rw [p.deliverable_eq_some_iff line lines_sorted]
  exact ⟨fun h => ⟨h.1.1, h.1.2, h.2.1, h.2.2⟩, fun h => ⟨⟨h.isLine, h.wanted⟩, h.lowest, h.free⟩⟩

theorem acknowledge_of_deliverable {p : Pic} {line : UInt8} (h : p.Deliverable line) :
    ∃ q, p.acknowledge = (some ⟨p.vectorOffset + line, line⟩, q) ∧ p.HandsOut q line := by
  have due := (p.deliverable_lines_iff line).2 h
  refine ⟨_, by rw [acknowledge, due], ?_, ?_, rfl⟩
  · intro other member
    exact holds_and_not_bit _ h.isLine member
  · intro other member
    exact holds_or_bit _ h.isLine member

theorem acknowledge_of_not_deliverable {p : Pic} (h : ∀ line, ¬ p.Deliverable line) :
    p.acknowledge = (none, p) := by
  have idle : p.deliverable lines = none := by
    rw [Option.eq_none_iff_forall_ne_some]
    intro line due
    exact h line ((p.deliverable_lines_iff line).1 due)
  rw [acknowledge, idle]

/-- What can happen to a controller. -/
inductive Op where
  | raise (line : IrqLine)
  | acknowledge
  | endOfInterrupt (line : UInt8)
  | read (port : UInt16)
  | write (port : UInt16) (value : UInt8)

def perform (p : Pic) : Op → Pic
  | .raise line => p.raise line
  | .acknowledge => p.acknowledge.2
  | .endOfInterrupt line => p.endOfInterrupt line
  | .read port => (PortDevice.getByte p port).2
  | .write port value => PortDevice.setByte p port value

def handedOut (p : Pic) : Op → Option PendingIrq
  | .acknowledge => p.acknowledge.1
  | _ => none

theorem serves_endOfInterrupt (p : Pic) (line : UInt8) {other : UInt8} (h : other ∈ lines) :
    (p.endOfInterrupt line).serves other = (p.serves other && other != line &&& 7) := by
  have isLine : line &&& 7 ∈ lines := by
    revert line
    exact forall_byte (by decide +kernel)
  exact holds_and_not_bit _ isLine h

theorem serves_endHighest (p : Pic) {other : UInt8} (h : other ∈ lines) :
    p.endHighest.serves other =
      (p.serves other && lines.any fun lower => lower < other && p.serves lower) :=
  holds_and_pred _ h

theorem serves_of_serves_setByte {p : Pic} {port : UInt16} {value line : UInt8} (h : line ∈ lines)
    (after : (p.setByte port value).serves line) : p.serves line := by
  rw [setByte] at after
  split at after
  · rw [writeCommand] at after
    split at after
    · exact absurd after (by simp [beginInit, serves])
    · split at after
      · rw [endCommand] at after
        split at after
        · rw [serves_endHighest p h] at after
          exact (Bool.and_eq_true_iff.1 after).1
        · split at after
          · rw [serves_endOfInterrupt p _ h] at after
            exact (Bool.and_eq_true_iff.1 after).1
          · exact after
      · split at after <;> exact after
  · rw [writeData] at after
    split at after <;> exact after

/-- Only an acknowledgement puts a line in service. -/
theorem serves_of_serves_perform {p : Pic} {op : Op} {line : UInt8} (h : line ∈ lines)
    (quiet : op ≠ .acknowledge) (after : (p.perform op).serves line) : p.serves line := by
  cases op with
  | raise _ | read _ => exact after
  | acknowledge => exact absurd rfl quiet
  | endOfInterrupt ended =>
      rw [perform, serves_endOfInterrupt p ended h] at after
      exact (Bool.and_eq_true_iff.1 after).1
  | write port value => exact serves_of_serves_setByte h after

end Pic
end RealMode
