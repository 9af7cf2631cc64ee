import RealMode.Registers.Snapshot

/-!
Readers of fields that all have one width. A reader that undoes an encoding, and takes off no more
than it would write, can be repeated: the repetition undoes the encodings one behind the other, and
the fault it meets is that of the first field that has one.
-/

namespace RealMode
namespace Snapshot

/-- The fault a reading ended with, if it did. -/
def faultOf {α : Type} : Except SnapshotError α → Option SnapshotError
  | .ok _ => none
  | .error e => some e

theorem faultOf_eq_some_iff {α : Type} {r : Except SnapshotError α} {e : SnapshotError} :
    faultOf r = some e ↔ r = .error e := by
  cases r <;> simp [faultOf]

theorem faultOf_eq_none_iff {α : Type} {r : Except SnapshotError α} :
    faultOf r = none ↔ ∃ x, r = .ok x := by
  cases r <;> simp [faultOf]

/-- The reader takes off what `enc` writes, in fields of `width` bytes. -/
structure Undoes {α : Type} (read : Reader α) (enc : α → List UInt8) (width : Nat) : Prop where
  length_enc : ∀ x, (enc x).length = width
  read_enc : ∀ x rest, read (enc x ++ rest) = .ok (x, rest)
  enc_of_read : ∀ {bytes x rest}, read bytes = .ok (x, rest) → bytes = enc x ++ rest

theorem undoes_word : Undoes word wordBytes 2 where
  length_enc _ := rfl
  read_enc x rest := by
    rw [wordBytes, List.cons_append, List.cons_append, List.nil_append, word, wordOfBytes_bytes]
  enc_of_read {bytes x rest} taken := by
    match bytes, taken with
    | low :: high :: _, taken =>
      obtain ⟨rfl, rfl⟩ : wordOfBytes low high = x ∧ _ = rest := by simpa [word] using taken
      simp [wordBytes]
    | [_], taken | [], taken => cases taken

theorem undoes_flag : Undoes flag (fun set => [flagByte set]) 1 where
  length_enc _ := rfl
  read_enc set rest := by cases set <;> rfl
  enc_of_read {bytes set rest} taken := by
    match bytes, taken with
    | b :: _, taken =>
      rw [flag] at taken
      split at taken
      case isTrue clear =>
        cases taken
        exact clear ▸ rfl
      case isFalse =>
        split at taken
        case isTrue one =>
          cases taken
          exact one ▸ rfl
        case isFalse => cases taken
    | [], taken => cases taken

section Repetition

variable {α : Type} {read : Reader α} {enc : α → List UInt8} {width : Nat}

theorem Undoes.many_enc (undo : Undoes read enc width) (xs : List α) (rest : List UInt8) :
    many read xs.length (xs.flatMap enc ++ rest) = .ok (xs, rest) := by
  induction xs with
  | nil => rfl
  | cons x xs ih =>
    rw [List.flatMap_cons, List.append_assoc, List.length_cons, many, undo.read_enc]
    simp only [ih]

theorem Undoes.enc_of_many (undo : Undoes read enc width) {n : Nat} {bytes rest : List UInt8}
    {xs : List α} (taken : many read n bytes = .ok (xs, rest)) :
    xs.length = n ∧ bytes = xs.flatMap enc ++ rest := by
  induction n generalizing bytes xs with
  | zero =>
    cases taken
    exact ⟨rfl, rfl⟩
  | succ n ih =>
    rw [many] at taken
    split at taken
    case h_1 => cases taken
    case h_2 x after first =>
      split at taken
      case h_1 => cases taken
      case h_2 ys _ others =>
        cases taken
        obtain ⟨count, parts⟩ := ih others
        exact ⟨congrArg Nat.succ count, by
          rw [undo.enc_of_read first, parts, List.flatMap_cons, List.append_assoc]⟩

theorem Undoes.length_flatMap (undo : Undoes read enc width) (xs : List α) :
    (xs.flatMap enc).length = width * xs.length := by
  induction xs with
  | nil => rfl
  | cons x xs ih =>
    rw [List.flatMap_cons, List.length_append, undo.length_enc, ih, List.length_cons,
      Nat.mul_succ, Nat.add_comm]

/-- A repetition stops at the first field that its reader cannot take. -/
theorem Undoes.faultOf_many (undo : Undoes read enc width) (n : Nat) (bytes : List UInt8) :
    faultOf (many read n bytes)
      = (List.range n).findSome? fun k => faultOf (read (bytes.drop (width * k))) := by
  induction n generalizing bytes with
  | zero => rfl
  | succ n ih =>
    rw [List.range_succ_eq_map, List.findSome?_cons, List.findSome?_map, Nat.mul_zero,
      List.drop_zero, many]
    cases first : read bytes with
    | error e => rfl
    | ok taken =>
      obtain ⟨x, rest⟩ := taken
      -- What the reader has left begins one field further on.
      have later (k : Nat) : bytes.drop (width * (k + 1)) = rest.drop (width * k) := by
        rw [undo.enc_of_read first, Nat.mul_succ, Nat.add_comm, ← List.drop_drop,
          List.drop_left' (undo.length_enc x)]
      have others := ih rest
      simp only [faultOf, Function.comp_def, Nat.succ_eq_add_one, later] at others ⊢
      rw [← others]
      cases many read n rest <;> rfl

end Repetition

theorem findSome?_congr {α β : Type} {f g : α → Option β} {xs : List α}
    (same : ∀ x ∈ xs, f x = g x) : xs.findSome? f = xs.findSome? g := by
  induction xs with
  | nil => rfl
  | cons x xs ih =>
    rw [List.forall_mem_cons] at same
    rw [List.findSome?_cons, List.findSome?_cons, same.1, ih same.2]

/-- The first value of a partial function below a bound, by its place. -/
theorem findSome?_range_eq_some_iff {β : Type} {f : Nat → Option β} {n : Nat} {y : β} :
    (List.range n).findSome? f = some y ↔ ∃ k < n, f k = some y ∧ ∀ j < k, f j = none := by
  induction n with
  | zero => simp
  | succ n ih =>
    rw [List.range_succ, List.findSome?_append, Option.or_eq_some_iff, ih,
      List.findSome?_eq_none_iff]
    constructor
    · rintro (⟨k, below, here, before⟩ | ⟨before, last⟩)
      · exact ⟨k, by omega, here, before⟩
      · exact ⟨n, by omega, by simpa using last, fun j low => before j (List.mem_range.mpr low)⟩
    · rintro ⟨k, below, here, before⟩
      rcases Nat.lt_succ_iff_lt_or_eq.mp below with low | rfl
      · exact .inl ⟨k, low, here, before⟩
      · exact .inr ⟨fun j low => before j (List.mem_range.mp low), by simpa using here⟩

end Snapshot
end RealMode
