import RealMode.Proofs.Snapshot.Fields

/-!
Storing a register file and reading it back. What is read is what was stored, whatever follows it;
what can be read at all is stored again as the bytes it came from; and what cannot be read is
refused with the fault of the leftmost field that has one.
-/

namespace RealMode
namespace Snapshot

theorem length_words (s : Registers) : (words s).length = 13 := rfl

theorem length_flags (f : Flags) : (flags f).length = 9 := rfl

theorem flagsOf_flags (f : Flags) : flagsOf (flags f) = f := rfl

theorem registersOf_words (s : Registers) : registersOf s.flags (words s) = s := rfl

theorem flags_flagsOf {set : List Bool} (count : set.length = 9) : flags (flagsOf set) = set := by
  match set, count with
  | [_, _, _, _, _, _, _, _, _], _ => rfl

theorem words_registersOf (f : Flags) {values : List UInt16} (count : values.length = 13) :
    words (registersOf f values) = values := by
  match values, count with
  | [_, _, _, _, _, _, _, _, _, _, _, _, _], _ => rfl

theorem flags_registersOf (f : Flags) {values : List UInt16} (count : values.length = 13) :
    (registersOf f values).flags = f := by
  match values, count with
  | [_, _, _, _, _, _, _, _, _, _, _, _, _], _ => rfl

theorem encode_eq (s : Registers) :
    encode s = (words s).flatMap wordBytes ++ (flags s.flags).flatMap fun set => [flagByte set] := by
  rw [encode, List.map_eq_flatMap]

theorem length_encode (s : Registers) : (encode s).length = 35 := rfl

theorem decode_encode_append (s : Registers) (rest : List UInt8) :
    decode (encode s ++ rest) = .ok s := by
  have taken := undoes_word.many_enc (words s)
    (((flags s.flags).flatMap fun set => [flagByte set]) ++ rest)
  have set := undoes_flag.many_enc (flags s.flags) rest
  rw [length_words] at taken
  rw [length_flags] at set
  rw [decode, encode_eq, List.append_assoc, taken]
  simp only [set, flagsOf_flags, registersOf_words]

theorem encode_of_decode {bytes : List UInt8} {s : Registers} (loaded : decode bytes = .ok s) :
    ∃ rest, bytes = encode s ++ rest := by
  rw [decode] at loaded
  split at loaded
  case h_1 => cases loaded
  case h_2 values middle taken =>
    split at loaded
    case h_1 => cases loaded
    case h_2 set rest marks =>
      cases loaded
      obtain ⟨count, front⟩ := undoes_word.enc_of_many taken
      obtain ⟨nine, back⟩ := undoes_flag.enc_of_many marks
      refine ⟨rest, ?_⟩
      rw [encode_eq, words_registersOf _ count, flags_registersOf _ count, flags_flagsOf nine,
        front, back, List.append_assoc]

/-- What is wrong with a flag, which should be one byte 0 or 1. -/
def flagFault : Option UInt8 → Option SnapshotError
  | none => some .tooShort
  | some b => if b = 0 ∨ b = 1 then none else some (.badFlag b)

/-- What is wrong with the field at place `k`, of the twenty-two in reading order: thirteen words,
then nine flags. -/
def fault? (bytes : List UInt8) (k : Nat) : Option SnapshotError :=
  if k < 13 then if bytes.length < 2 * k + 2 then some .tooShort else none
  else flagFault bytes[13 + k]?

theorem faultOf_word (bytes : List UInt8) :
    faultOf (word bytes) = if bytes.length < 2 then some .tooShort else none := by
  match bytes with
  | [] | [_] => rfl
  | _ :: _ :: rest =>
    rw [if_neg (by simp)]
    rfl

theorem faultOf_flag (bytes : List UInt8) : faultOf (flag bytes) = flagFault bytes[0]? := by
  match bytes with
  | [] => rfl
  | b :: rest =>
    by_cases clear : b = 0
    · simp [flag, flagFault, clear, faultOf]
    · by_cases one : b = 1 <;> simp [flag, flagFault, clear, one, faultOf]

section Places

variable {bytes : List UInt8} {k : Nat}

theorem faultOf_word_drop (isWord : k < 13) :
    faultOf (word (bytes.drop (2 * k))) = fault? bytes k := by
  rw [faultOf_word, fault?, if_pos isWord, List.length_drop]
  congr 1
  exact propext (by omega)

theorem fault?_flag : fault? bytes (13 + k) = flagFault bytes[26 + k]? := by
  rw [fault?, if_neg (by omega), ← Nat.add_assoc]

theorem faultOf_flag_drop : faultOf (flag (bytes.drop (26 + k))) = fault? bytes (13 + k) := by
  rw [faultOf_flag, fault?_flag, List.getElem?_drop, Nat.add_zero]

theorem word_or_flag (below : k < 22) : k < 13 ∨ ∃ i < 9, k = 13 + i := by
  rcases Nat.lt_or_ge k 13 with isWord | isFlag
  · exact .inl isWord
  · exact .inr ⟨k - 13, by omega, by omega⟩

end Places

/-- Reading ends with the fault of the first field that has one. -/
theorem faultOf_decode (bytes : List UInt8) :
    faultOf (decode bytes) = (List.range 22).findSome? (fault? bytes) := by
  have front : faultOf (many word 13 bytes) = (List.range 13).findSome? (fault? bytes) := by
    rw [undoes_word.faultOf_many]
    exact findSome?_congr fun k mem => faultOf_word_drop (List.mem_range.mp mem)
  rw [show 22 = 13 + 9 from rfl, List.range_add, List.findSome?_append, ← front, decode]
  cases taken : many word 13 bytes with
  | error e => rfl
  | ok pair =>
    obtain ⟨values, middle⟩ := pair
    obtain ⟨count, parts⟩ := undoes_word.enc_of_many taken
    have ends : middle = bytes.drop 26 := by
      rw [parts, List.drop_left' (by rw [undoes_word.length_flatMap, count])]
    have back : faultOf (many flag 9 middle)
        = ((List.range 9).map (13 + ·)).findSome? (fault? bytes) := by
      rw [undoes_flag.faultOf_many, List.findSome?_map, ends]
      refine findSome?_congr fun k _ => ?_
      rw [Function.comp_apply, ← faultOf_flag_drop, List.drop_drop, Nat.one_mul]
    rw [← back]
    simp only [faultOf, Option.none_or]
    cases many flag 9 middle <;> rfl

theorem decode_eq_error_iff {bytes : List UInt8} {e : SnapshotError} :
    decode bytes = .error e ↔
      ∃ k < 22, fault? bytes k = some e ∧ ∀ j < k, fault? bytes j = none := by
  rw [← faultOf_eq_some_iff, faultOf_decode, findSome?_range_eq_some_iff]

theorem decode_eq_ok_iff {bytes : List UInt8} :
    (∃ s, decode bytes = .ok s) ↔ ∀ k < 22, fault? bytes k = none := by
  rw [← faultOf_eq_none_iff, faultOf_decode, List.findSome?_eq_none_iff]
  simp only [List.mem_range]

/-- The flag byte at place `k` is there and names a truth value. -/
def Marked (bytes : List UInt8) (k : Nat) : Prop :=
  bytes[26 + k]? = some 0 ∨ bytes[26 + k]? = some 1

/-- Nothing of the stored form is missing, and each of its flags is 0 or 1. -/
structure Whole (bytes : List UInt8) : Prop where
  long : 35 ≤ bytes.length
  marked : ∀ k < 9, Marked bytes k

section Faults

variable {bytes : List UInt8} {k : Nat} {b : UInt8} {e : SnapshotError}

theorem Marked.inside (marked : Marked bytes k) : 26 + k < bytes.length := by
  rcases marked with clear | one
  · exact (List.getElem?_eq_some_iff.mp clear).1
  · exact (List.getElem?_eq_some_iff.mp one).1

theorem fault?_word_eq_none_iff (isWord : k < 13) :
    fault? bytes k = none ↔ 2 * k + 2 ≤ bytes.length := by
  rw [fault?, if_pos isWord]
  split <;> simp <;> omega

theorem fault?_word_eq_some_iff (isWord : k < 13) :
    fault? bytes k = some e ↔ bytes.length < 2 * k + 2 ∧ e = .tooShort := by
  rw [fault?, if_pos isWord]
  split <;> simp [*, eq_comm]

theorem fault?_flag_eq_none_iff : fault? bytes (13 + k) = none ↔ Marked bytes k := by
  rw [fault?_flag, Marked]
  cases bytes[26 + k]? with
  | none => simp [flagFault]
  | some c => simp [flagFault, Decidable.or_iff_not_imp_left]

theorem fault?_flag_eq_badFlag_iff :
    fault? bytes (13 + k) = some (.badFlag b) ↔ bytes[26 + k]? = some b ∧ b ≠ 0 ∧ b ≠ 1 := by
  rw [fault?_flag]
  cases bytes[26 + k]? with
  | none => simp [flagFault]
  | some c =>
    simp only [flagFault, Option.some.injEq]
    split
    case isTrue good =>
      refine iff_of_false nofun ?_
      rintro ⟨rfl, bad⟩
      exact not_or.mpr bad good
    case isFalse bad =>
      constructor
      · rintro ⟨⟩
        exact ⟨rfl, not_or.mp bad⟩
      · rintro ⟨rfl, -⟩
        rfl

theorem fault?_flag_eq_tooShort_iff :
    fault? bytes (13 + k) = some .tooShort ↔ bytes.length ≤ 26 + k := by
  rw [fault?_flag, ← List.getElem?_eq_none_iff]
  cases bytes[26 + k]? with
  | none => simp [flagFault]
  | some c =>
    simp only [flagFault, reduceCtorEq, iff_false]
    split <;> nofun

theorem whole_iff : Whole bytes ↔ ∀ k < 22, fault? bytes k = none := by
  constructor
  · rintro ⟨long, marked⟩ k below
    rcases word_or_flag below with isWord | ⟨i, isFlag, rfl⟩
    · exact (fault?_word_eq_none_iff isWord).mpr (by omega)
    · exact fault?_flag_eq_none_iff.mpr (marked i isFlag)
  · intro sound
    have marked (k : Nat) (below : k < 9) : Marked bytes k :=
      fault?_flag_eq_none_iff.mp (sound (13 + k) (by omega))
    exact ⟨(marked 8 (by omega)).inside, marked⟩

/-- A flag byte that is there and is neither 0 nor 1 is reported, the first of them if there are
more, and whatever is missing behind it. -/
theorem decode_eq_badFlag_iff :
    decode bytes = .error (.badFlag b) ↔
      ∃ k < 9, bytes[26 + k]? = some b ∧ (b ≠ 0 ∧ b ≠ 1) ∧ ∀ j < k, Marked bytes j := by
  rw [decode_eq_error_iff]
  constructor
  · rintro ⟨k, below, fault, before⟩
    rcases word_or_flag below with isWord | ⟨i, isFlag, rfl⟩
    · cases ((fault?_word_eq_some_iff isWord).mp fault).2
    · obtain ⟨present, bad⟩ := fault?_flag_eq_badFlag_iff.mp fault
      exact ⟨i, isFlag, present, bad, fun j low =>
        fault?_flag_eq_none_iff.mp (before (13 + j) (by omega))⟩
  · rintro ⟨k, below, present, bad, before⟩
    have inside := (List.getElem?_eq_some_iff.mp present).1
    refine ⟨13 + k, by omega, fault?_flag_eq_badFlag_iff.mpr ⟨present, bad⟩, fun j low => ?_⟩
    rcases word_or_flag (Nat.lt_trans low (by omega)) with isWord | ⟨i, isFlag, rfl⟩
    · exact (fault?_word_eq_none_iff isWord).mpr (by omega)
    · exact fault?_flag_eq_none_iff.mpr (before i (by omega))

example : decode (List.replicate 26 0 ++ [1, 7]) = .error (.badFlag 7) := rfl

/-- Bytes that end too soon are reported as such only if no flag among them is bad. -/
theorem decode_eq_tooShort_iff :
    decode bytes = .error .tooShort ↔
      bytes.length < 35 ∧ ∀ k < 9, ∀ b, bytes[26 + k]? = some b → b = 0 ∨ b = 1 := by
  constructor
  · intro short
    obtain ⟨k, below, fault, before⟩ := decode_eq_error_iff.mp short
    -- The bytes end before flag `i` does, and the flags to its left are good.
    obtain ⟨i, isFlag, ends, good⟩ :
        ∃ i < 9, bytes.length ≤ 26 + i ∧ ∀ j < i, Marked bytes j := by
      rcases word_or_flag below with isWord | ⟨i, isFlag, rfl⟩
      · have missing := ((fault?_word_eq_some_iff isWord).mp fault).1
        exact ⟨0, by omega, by omega, nofun⟩
      · exact ⟨i, isFlag, fault?_flag_eq_tooShort_iff.mp fault, fun j low =>
          fault?_flag_eq_none_iff.mp (before (13 + j) (by omega))⟩
    refine ⟨by omega, fun j _ b present => ?_⟩
    have inside := (List.getElem?_eq_some_iff.mp present).1
    simpa only [Marked, present, Option.some.injEq] using good j (by omega)
  · rintro ⟨short, good⟩
    cases result : decode bytes with
    | ok s =>
      have whole := whole_iff.mpr (decode_eq_ok_iff.mp ⟨s, result⟩)
      exact absurd whole.long (by omega)
    | error e =>
      cases e with
      | tooShort => rfl
      | badFlag b =>
        obtain ⟨k, below, present, bad, -⟩ := decode_eq_badFlag_iff.mp result
        exact absurd (good k below b present) (not_or.mpr bad)

end Faults

/-- A word at a place of the bytes, low byte first. -/
def WordAt (bytes : List UInt8) (i : Nat) (value : UInt16) : Prop :=
  bytes[i]? = some (lowByte value) ∧ bytes[i + 1]? = some (highByte value)

theorem wordAt_flatMap {values : List UInt16} {k : Nat} {value : UInt16} (rest : List UInt8)
    (there : values[k]? = some value) :
    WordAt (values.flatMap wordBytes ++ rest) (2 * k) value := by
  induction values generalizing k with
  | nil => cases there
  | cons first values ih =>
    cases k with
    | zero =>
      cases there
      exact ⟨rfl, rfl⟩
    | succ k => exact ih there

theorem wordAt_encode {s : Registers} {k : Nat} {value : UInt16}
    (there : (words s)[k]? = some value) : WordAt (encode s) (2 * k) value :=
  wordAt_flatMap _ there

/-- What the stored form of a register file is, and that it is read back whatever follows it. -/
structure Stored (s : Registers) : Prop where
  length : (encode s).length = 35
  general : ∀ i : Fin 8, WordAt (encode s) (2 * i) (s.get (.ofIndex i))
  segments : ∀ i : Fin 4, WordAt (encode s) (16 + 2 * i) (s.seg (.ofIndex i))
  ip : WordAt (encode s) 24 s.ip
  flags : (encode s).drop 26 =
    [s.flags.carry, s.flags.parity, s.flags.auxCarry, s.flags.zero, s.flags.sign, s.flags.trap,
      s.flags.interrupt, s.flags.direction, s.flags.overflow].map fun set => if set then 1 else 0
  loads : ∀ rest, decode (encode s ++ rest) = .ok s

/-- What reading makes of the bytes: a register file exactly if they are whole, and then one whose
stored form they begin with; otherwise the fault of the first field that has one. -/
structure Restored (bytes : List UInt8) : Prop where
  loads : (∃ s, decode bytes = .ok s) ↔ Whole bytes
  stores : ∀ s, decode bytes = .ok s → encode s = bytes.take 35
  refuses : ∀ e, decode bytes = .error e ↔
    ∃ k < 22, fault? bytes k = some e ∧ ∀ j < k, fault? bytes j = none
  badFlag : ∀ b, decode bytes = .error (.badFlag b) ↔
    ∃ k < 9, bytes[26 + k]? = some b ∧ (b ≠ 0 ∧ b ≠ 1) ∧ ∀ j < k, Marked bytes j
  tooShort : decode bytes = .error .tooShort ↔
    bytes.length < 35 ∧ ∀ k < 9, ∀ b, bytes[26 + k]? = some b → b = 0 ∨ b = 1

theorem stored (s : Registers) : Stored s where
  length := length_encode s
  general i := by
    have there : (words s)[i.val]? = some (s.get (.ofIndex i)) := by
      match i with
      | 0 | 1 | 2 | 3 | 4 | 5 | 6 | 7 => rfl
    exact wordAt_encode there
  segments i := by
    have there : (words s)[8 + i.val]? = some (s.seg (.ofIndex i)) := by
      match i with
      | 0 | 1 | 2 | 3 => rfl
    simpa only [Nat.mul_add] using wordAt_encode there
  ip := by
    have there : (words s)[12]? = some s.ip := rfl
    exact wordAt_encode there
  flags := rfl
  loads := decode_encode_append s

theorem restored (bytes : List UInt8) : Restored bytes where
  loads := decode_eq_ok_iff.trans whole_iff.symm
  stores s loaded := by
    obtain ⟨rest, rfl⟩ := encode_of_decode loaded
    exact (List.take_left' (length_encode s)).symm
  refuses _ := decode_eq_error_iff
  badFlag _ := decode_eq_badFlag_iff
  tooShort := decode_eq_tooShort_iff

/-- Storing and reading undo each other, and every sequence of bytes is either read or refused for
its first fault. -/
theorem registers_round_trip : (∀ s, Stored s) ∧ ∀ bytes, Restored bytes :=
  ⟨stored, restored⟩

end Snapshot
end RealMode
