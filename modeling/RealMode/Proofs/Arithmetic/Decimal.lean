import Mathlib.Data.Nat.Digits.Defs
import Mathlib.Tactic.LinearCombination
import RealMode.Flags.Decimal
import RealMode.Proofs.Arithmetic.Sums

/-!
Packed decimals of any length. A byte holds two decimal digits, the lowest byte comes first, and the
adjusted sum or difference of two bytes hands its carry on to the next. The bytes stand for a number
in base 100, and what is carried out of the last one is missing from it.
-/

namespace RealMode

/-- Two decimal digits in a byte. -/
def Packed (b : UInt8) : Prop :=
  b.toNat % 16 ≤ 9 ∧ b.toNat / 16 ≤ 9

instance : DecidablePred Packed :=
  fun _ => inferInstanceAs (Decidable (_ ∧ _))

/-- The number of the two digits. -/
def unpacked (b : UInt8) : Nat :=
  b.toNat / 16 * 10 + b.toNat % 16

/-- The number that bytes of two digits stand for, the lowest first. -/
def decimalValue (bytes : List UInt8) : Nat :=
  Nat.ofDigits 100 (bytes.map unpacked)

/-- The last digits of a number, two in each of so many bytes. -/
def decimalDigits : Nat → Nat → List UInt8
  | 0, _ => []
  | n + 1, v => .ofNat (v % 100 / 10 * 16 + v % 10) :: decimalDigits n (v / 100)

theorem decimalValue_cons (x : UInt8) (xs : List UInt8) :
    decimalValue (x :: xs) = unpacked x + 100 * decimalValue xs :=
  Nat.ofDigits_cons

theorem unpacked_lt {b : UInt8} (packed : Packed b) : unpacked b < 100 := by
  obtain ⟨low, high⟩ := packed
  rw [unpacked]
  omega

theorem decimalValue_lt {bytes : List UInt8} (packed : ∀ b ∈ bytes, Packed b) :
    decimalValue bytes < 100 ^ bytes.length := by
  have below : decimalValue bytes < 100 ^ (bytes.map unpacked).length := by
    apply Nat.ofDigits_lt_base_pow_length (by decide)
    intro d member
    obtain ⟨b, here, rfl⟩ := List.mem_map.1 member
    exact unpacked_lt (packed b here)
  rwa [List.length_map] at below

/-- Nothing but the digits of its number is in a packed decimal. -/
theorem decimalDigits_value {bytes : List UInt8} (packed : ∀ b ∈ bytes, Packed b) :
    decimalDigits bytes.length (decimalValue bytes) = bytes := by
  induction bytes with
  | nil => rfl
  | cons x xs ih =>
    have two := unpacked_lt (packed x List.mem_cons_self)
    obtain ⟨low, high⟩ := packed x List.mem_cons_self
    have above : (unpacked x + 100 * decimalValue xs) / 100 = decimalValue xs := by omega
    have below : UInt8.ofNat ((unpacked x + 100 * decimalValue xs) % 100 / 10 * 16 +
        (unpacked x + 100 * decimalValue xs) % 10) = x := by
      apply UInt8.toNat_inj.1
      rw [UInt8.toNat_ofNat']
      simp only [unpacked] at *
      omega
    rw [decimalValue_cons, List.length_cons, decimalDigits, above, below,
      ih fun b member => packed b (List.mem_cons_of_mem x member)]

/-- Packed decimals are told from their number, and from any other that differs from it in what
has no room. -/
theorem eq_decimalDigits {bytes : List UInt8} {n : Nat} {total k : Int}
    (packed : ∀ b ∈ bytes, Packed b) (length : bytes.length = n)
    (value : (decimalValue bytes : Int) = total + 100 ^ n * k) :
    bytes = decimalDigits n (total % 100 ^ n).toNat := by
  have below : (decimalValue bytes : Int) < 100 ^ n := by
    rw [← length]
    exact_mod_cast decimalValue_lt packed
  have rest : total % 100 ^ n = decimalValue bytes := by
    rw [← Int.add_mul_emod_self_left total (100 ^ n) k, ← value,
      Int.emod_eq_of_lt (Int.natCast_nonneg _) below]
  rw [rest, Int.toNat_natCast, ← length, decimalDigits_value packed]

namespace Flags

/-- ADC and DAA on one byte. -/
def addPacked (f : Flags) (x y : UInt8) : UInt8 × Flags :=
  let sum := f.add .byte x.toUInt16 y.toUInt16 f.carry
  sum.2.daa (lowByte sum.1)

/-- SBB and DAS on one byte. -/
def subPacked (f : Flags) (x y : UInt8) : UInt8 × Flags :=
  let difference := f.sub .byte x.toUInt16 y.toUInt16 f.carry
  difference.2.das (lowByte difference.1)

/-- Byte by byte, each with the flags that the one before has left. -/
def chain (step : Flags → UInt8 → UInt8 → UInt8 × Flags) (f : Flags) :
    List UInt8 → List UInt8 → List UInt8 × Flags
  | x :: xs, y :: ys =>
    let first := step f x y
    let rest := chain step first.2 xs ys
    (first.1 :: rest.1, rest.2)
  | _, _ => ([], f)

/-- The result of one byte and the carry out of it: a hundred has been carried out of a sum, whose
`sign` is 1, or borrowed for a difference, whose `sign` is -1. -/
def Carries (f : Flags) (sign : Int) (x y : UInt8) (r : UInt8 × Flags) : Prop :=
  Packed r.1 ∧
    (unpacked r.1 : Int) + sign * (100 * r.2.carry.toNat) =
      unpacked x + sign * (unpacked y + f.carry.toNat)

variable (f : Flags)

theorem lowDigitOff_iff (al : UInt8) :
    f.lowDigitOff al = true ↔ 9 < al.toNat % 16 ∨ f.auxCarry = true := by
  have low : (al &&& 0x0F).toNat = al.toNat % 16 := Nat.and_two_pow_sub_one_eq_mod al.toNat 4
  rw [lowDigitOff, Bool.or_eq_true, decide_eq_true_iff, gt_iff_lt, UInt8.lt_iff_toNat_lt, low]
  exact Iff.rfl

theorem highDigitOff_iff (al : UInt8) :
    (decide (al > 0x99) || f.carry) = true ↔ 0x99 < al.toNat ∨ f.carry = true := by
  rw [Bool.or_eq_true, decide_eq_true_iff, gt_iff_lt, UInt8.lt_iff_toNat_lt]
  exact Iff.rfl

/-- Each digit that is off is raised by the six values that no digit has. -/
theorem daa_number (al : UInt8) : ∃ low high : Bool,
    (low = true ↔ 9 < al.toNat % 16 ∨ f.auxCarry = true) ∧
      (high = true ↔ 0x99 < al.toNat ∨ f.carry = true) ∧
      (f.daa al).1.toNat = (al.toNat + 6 * low.toNat + 0x60 * high.toNat) % 256 ∧
      (f.daa al).2.carry = high := by
  refine ⟨f.lowDigitOff al, decide (al > 0x99) || f.carry, f.lowDigitOff_iff al,
    f.highDigitOff_iff al, ?_, rfl⟩
  simp only [daa]
  cases f.lowDigitOff al <;> cases decide (al > 0x99) || f.carry <;>
    simp [UInt8.toNat_add]

theorem das_number (al : UInt8) : ∃ low high : Bool,
    (low = true ↔ 9 < al.toNat % 16 ∨ f.auxCarry = true) ∧
      (high = true ↔ 0x99 < al.toNat ∨ f.carry = true) ∧
      ((f.das al).1.toNat : Int) = (al.toNat - 6 * low.toNat - 0x60 * high.toNat) % 256 ∧
      ((f.das al).2.carry = true ↔ high = true ∨ low = true ∧ al.toNat < 6) := by
  refine ⟨f.lowDigitOff al, decide (al > 0x99) || f.carry, f.lowDigitOff_iff al,
    f.highDigitOff_iff al, ?_, ?_⟩
  · have bound := al.toNat_lt
    simp only [das]
    cases f.lowDigitOff al <;> cases decide (al > 0x99) || f.carry <;>
      simp [UInt8.toNat_sub] <;> omega
  · simp only [das, withResult, Bool.or_eq_true, Bool.and_eq_true, decide_eq_true_iff,
      UInt8.lt_iff_toNat_lt]
    exact Iff.rfl

theorem value_byte (x : UInt8) : Width.byte.value false x.toUInt16 = x.toNat := by
  rw [Width.value_unsigned, Nat.mod_eq_of_lt (Width.toNat_toUInt16_lt x), UInt8.toNat_toUInt16]

theorem digit_byte (x : UInt8) : digit x.toUInt16 = x.toNat % 16 := by
  rw [digit, UInt8.toNat_toUInt16]

/-- A truth value as a number that can be compared with others. -/
theorem toNat_cases {b : Bool} {P : Prop} (h : b = true ↔ P) :
    b.toNat = 1 ∧ P ∨ b.toNat = 0 ∧ ¬ P := by
  cases b with
  | false => exact .inr ⟨rfl, fun p => Bool.false_ne_true (h.2 p)⟩
  | true => exact .inl ⟨rfl, h.1 rfl⟩

/-- The bytes are added digit by digit, and `low` is carried from the units to the tens. -/
theorem carries_of_digits {f : Flags} {sign t u : Int} {x y : UInt8} {r : UInt8 × Flags}
    (low : Bool)
    (units : u = (x.toNat % 16 : Nat) + sign * ((y.toNat % 16 : Nat) + f.carry.toNat) -
      sign * (10 * low.toNat))
    (tens : t = (x.toNat / 16 : Nat) + sign * ((y.toNat / 16 : Nat) + low.toNat) -
      sign * (10 * r.2.carry.toNat))
    (oneUnit : 0 ≤ u ∧ u ≤ 9) (oneTen : 0 ≤ t ∧ t ≤ 9)
    (number : (r.1.toNat : Int) = (16 * t + u) % 256) : f.Carries sign x y r := by
  have digits : ((r.1.toNat / 16 : Nat) : Int) = t ∧ ((r.1.toNat % 16 : Nat) : Int) = u := by
    omega
  have value (b : UInt8) :
      (unpacked b : Int) = (b.toNat / 16 : Nat) * 10 + (b.toNat % 16 : Nat) := rfl
  constructor
  · rw [Packed]
    omega
  · rw [value, value, value, digits.1, digits.2, units, tens]
    ring

theorem carries_addPacked {x y : UInt8} (first : Packed x) (second : Packed y) :
    f.Carries 1 x y (f.addPacked x y) := by
  have sum := f.adds_add .byte x.toUInt16 y.toUInt16 f.carry
  have one := Bool.toNat_le f.carry
  rw [addPacked]
  generalize f.add .byte x.toUInt16 y.toUInt16 f.carry = s at sum ⊢
  obtain ⟨result, carry, -, auxCarry, -⟩ := sum
  obtain ⟨low, high, lowOff, highOff, number, out⟩ := s.2.daa_number (lowByte s.1)
  rw [value_byte, value_byte] at result carry
  rw [digit_byte, digit_byte] at auxCarry
  rw [auxCarry] at lowOff
  rw [carry] at highOff
  simp only [toNat_lowByte, Width.bits, Packed] at *
  -- a digit is off if the decimal digits carry, for then the sum is still below the next carry
  have units : low = true ↔ 10 ≤ x.toNat % 16 + y.toNat % 16 + f.carry.toNat := by
    rw [lowOff]
    omega
  have unitsCases := toNat_cases units
  have tens : high = true ↔ 10 ≤ x.toNat / 16 + y.toNat / 16 + low.toNat := by
    rw [highOff]
    omega
  have tensCases := toNat_cases tens
  refine carries_of_digits low rfl rfl ?_ ?_ ?_
  · omega
  · rw [out]
    omega
  · rw [out]
    omega

theorem carries_subPacked {x y : UInt8} (first : Packed x) (second : Packed y) :
    f.Carries (-1) x y (f.subPacked x y) := by
  have difference := f.subtracts_sub .byte x.toUInt16 y.toUInt16 f.carry
  have one := Bool.toNat_le f.carry
  rw [subPacked]
  generalize f.sub .byte x.toUInt16 y.toUInt16 f.carry = s at difference ⊢
  obtain ⟨result, carry, -, auxCarry, -⟩ := difference
  obtain ⟨low, high, lowOff, highOff, number, out⟩ := s.2.das_number (lowByte s.1)
  rw [value_byte, value_byte] at result carry
  rw [digit_byte, digit_byte] at auxCarry
  rw [auxCarry] at lowOff
  rw [carry] at highOff
  simp only [toNat_lowByte, Width.bits, Packed] at *
  have units : low = true ↔ x.toNat % 16 < y.toNat % 16 + f.carry.toNat := by
    rw [lowOff]
    omega
  have unitsCases := toNat_cases units
  have tens : high = true ↔ x.toNat / 16 < y.toNat / 16 + low.toNat := by
    rw [highOff]
    omega
  have tensCases := toNat_cases tens
  -- DAS carries also if the low adjustment borrows, and then the high digit is off as well
  have borrow : (s.2.das (lowByte s.1)).2.carry = high := by
    rw [Bool.eq_iff_iff, out, units, tens]
    omega
  refine carries_of_digits low rfl rfl ?_ ?_ ?_
  · omega
  · rw [borrow]
    omega
  · rw [borrow]
    omega

/-- What holds of every byte holds of the whole chain, with the carry out of the last. -/
theorem chain_value {step : Flags → UInt8 → UInt8 → UInt8 × Flags} {sign : Int}
    (exact : ∀ (f : Flags) {x y : UInt8},
      Packed x → Packed y → f.Carries sign x y (step f x y))
    {xs ys : List UInt8} (same : xs.length = ys.length) (first : ∀ b ∈ xs, Packed b)
    (second : ∀ b ∈ ys, Packed b) (f : Flags) :
    (chain step f xs ys).1.length = xs.length ∧ (∀ b ∈ (chain step f xs ys).1, Packed b) ∧
      (decimalValue (chain step f xs ys).1 : Int) +
          sign * (100 ^ xs.length * (chain step f xs ys).2.carry.toNat) =
        decimalValue xs + sign * (decimalValue ys + f.carry.toNat) := by
  induction xs generalizing ys f with
  | nil =>
    obtain rfl : ys = [] := List.length_eq_zero_iff.1 same.symm
    refine ⟨rfl, fun b member => (List.not_mem_nil member).elim, ?_⟩
    simp [chain, decimalValue]
  | cons x xs ih =>
    cases ys with
    | nil => simp at same
    | cons y ys =>
      simp only [List.forall_mem_cons] at first second
      obtain ⟨packed, value⟩ := exact f first.1 second.1
      obtain ⟨length, others, rest⟩ :=
        ih (Nat.succ.inj same) first.2 second.2 (step f x y).2
      refine ⟨congrArg Nat.succ length, List.forall_mem_cons.2 ⟨packed, others⟩, ?_⟩
      simp only [chain, decimalValue_cons, List.length_cons]
      push_cast
      rw [pow_succ]
      linear_combination value + 100 * rest

variable {xs ys : List UInt8}

/-- The result of a chain has the digits of the exact number, and the carry tells that the number
has no room in them. -/
theorem chain_result {step : Flags → UInt8 → UInt8 → UInt8 × Flags} {sign : Int}
    (exact : ∀ (f : Flags) {x y : UInt8},
      Packed x → Packed y → f.Carries sign x y (step f x y))
    (unit : sign = 1 ∨ sign = -1) (same : xs.length = ys.length) (first : ∀ b ∈ xs, Packed b)
    (second : ∀ b ∈ ys, Packed b) {total : Int}
    (number : decimalValue xs + sign * (decimalValue ys + f.carry.toNat) = total) :
    (chain step f xs ys).1 = decimalDigits xs.length (total % 100 ^ xs.length).toNat ∧
      ((chain step f xs ys).2.carry = true ↔ total < 0 ∨ 100 ^ xs.length ≤ total) := by
  obtain ⟨length, packed, value⟩ := chain_value exact same first second f
  have carried : (decimalValue (chain step f xs ys).1 : Int) =
      total + 100 ^ xs.length * -(sign * (chain step f xs ys).2.carry.toNat) := by
    linear_combination value + number
  refine ⟨eq_decimalDigits packed length carried, ?_⟩
  have below : (decimalValue (chain step f xs ys).1 : Int) < 100 ^ xs.length := by
    exact_mod_cast length ▸ decimalValue_lt packed
  cases out : (chain step f xs ys).2.carry with
  | false =>
    simp only [out, Bool.toNat_false] at carried
    simp only [Bool.false_eq_true, false_iff]
    omega
  | true =>
    simp only [out, Bool.toNat_true] at carried
    simp only [true_iff]
    rcases unit with rfl | rfl <;> omega

theorem add_chain (same : xs.length = ys.length) (first : ∀ b ∈ xs, Packed b)
    (second : ∀ b ∈ ys, Packed b) :
    (f.chain addPacked xs ys).1 = decimalDigits xs.length
        ((decimalValue xs + decimalValue ys + f.carry.toNat) % 100 ^ xs.length) ∧
      ((f.chain addPacked xs ys).2.carry = true ↔
        100 ^ xs.length ≤ decimalValue xs + decimalValue ys + f.carry.toNat) := by
  have number : (decimalValue xs : Int) + 1 * (decimalValue ys + f.carry.toNat) =
      (decimalValue xs + decimalValue ys + f.carry.toNat : Nat) := by
    omega
  obtain ⟨digits, carry⟩ := f.chain_result carries_addPacked (.inl rfl) same first second number
  refine ⟨by exact_mod_cast digits, carry.trans ?_⟩
  have power : ((100 ^ xs.length : Nat) : Int) = 100 ^ xs.length := by norm_cast
  rw [← power]
  omega

theorem sub_chain (same : xs.length = ys.length) (first : ∀ b ∈ xs, Packed b)
    (second : ∀ b ∈ ys, Packed b) :
    (f.chain subPacked xs ys).1 = decimalDigits xs.length
        (((decimalValue xs : Int) - decimalValue ys - f.carry.toNat) % 100 ^ xs.length).toNat ∧
      ((f.chain subPacked xs ys).2.carry = true ↔
        decimalValue xs < decimalValue ys + f.carry.toNat) := by
  have number : (decimalValue xs : Int) + -1 * (decimalValue ys + f.carry.toNat) =
      decimalValue xs - decimalValue ys - f.carry.toNat := by
    omega
  obtain ⟨digits, carry⟩ := f.chain_result carries_subPacked (.inr rfl) same first second number
  refine ⟨digits, carry.trans ?_⟩
  have below : (decimalValue xs : Int) < 100 ^ xs.length := by
    exact_mod_cast decimalValue_lt first
  omega

/-- Sums and differences of packed decimals, of any length and with the carry as it comes, are those
of their numbers. -/
theorem packed_chain (same : xs.length = ys.length) (first : ∀ b ∈ xs, Packed b)
    (second : ∀ b ∈ ys, Packed b) :
    ((f.chain addPacked xs ys).1 = decimalDigits xs.length
        ((decimalValue xs + decimalValue ys + f.carry.toNat) % 100 ^ xs.length) ∧
      ((f.chain addPacked xs ys).2.carry = true ↔
        100 ^ xs.length ≤ decimalValue xs + decimalValue ys + f.carry.toNat)) ∧
    ((f.chain subPacked xs ys).1 = decimalDigits xs.length
        (((decimalValue xs : Int) - decimalValue ys - f.carry.toNat) % 100 ^ xs.length).toNat ∧
      ((f.chain subPacked xs ys).2.carry = true ↔
        decimalValue xs < decimalValue ys + f.carry.toNat)) :=
  ⟨f.add_chain same first second, f.sub_chain same first second⟩

/-- 9999 and 1 with a carry in, where every byte carries. -/
theorem packed_chain_round :
    [0x99, 0x99].length = [0x01, 0x00].length ∧ (∀ b ∈ [0x99, 0x99], Packed b) ∧
      (∀ b ∈ [0x01, 0x00], Packed b) ∧
      (({ carry := true } : Flags).chain addPacked [0x99, 0x99] [0x01, 0x00]).1 = [0x01, 0x00] ∧
      (({ carry := true } : Flags).chain addPacked [0x99, 0x99] [0x01, 0x00]).2.carry = true := by
  have same : [0x99, 0x99].length = [0x01, 0x00].length := rfl
  have first : ∀ b ∈ [0x99, 0x99], Packed b :=
    List.forall_mem_cons.2 ⟨by decide, List.forall_mem_singleton.2 (by decide)⟩
  have second : ∀ b ∈ [0x01, 0x00], Packed b :=
    List.forall_mem_cons.2 ⟨by decide, List.forall_mem_singleton.2 (by decide)⟩
  obtain ⟨⟨digits, carry⟩, -⟩ := packed_chain { carry := true } same first second
  refine ⟨same, first, second, digits, carry.2 ?_⟩
  decide

end Flags
end RealMode
