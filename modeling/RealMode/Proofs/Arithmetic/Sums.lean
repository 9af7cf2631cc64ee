import RealMode.Proofs.Arithmetic.Shifts

/-!
Sums and differences against those of the integers. The 32 bits in which they are taken hold every
sum, so that what lies above the operand is the carry, and of a difference the borrow. Overflow and
the auxiliary carry are single bits of the operands and the result, and say that the exact number
has no place among the signed operands, or the low digits none in four bits.
-/

namespace RealMode

/-- A mask of one bit asks for that bit of the number. -/
theorem and_place_ne_zero (x : UInt32) {place : UInt32} {k : Nat}
    (single : place.toBitVec = BitVec.twoPow 32 k) (inside : k < 32) :
    (x &&& place != 0) = true ↔ x.toNat / 2 ^ k % 2 = 1 := by
  have real : BitVec.twoPow 32 k ≠ 0 := by
    intro none
    have bit := congrArg (BitVec.getLsbD · k) none
    simp [inside] at bit
  have masked : (x &&& place).toBitVec = if x.toNat.testBit k then BitVec.twoPow 32 k else 0 := by
    rw [UInt32.toBitVec_and, single, BitVec.and_twoPow]
    rfl
  rw [bne_iff_ne, ne_eq, ← UInt32.toBitVec_inj, masked, Nat.testBit_eq_decide_div_mod_eq]
  by_cases set : x.toNat / 2 ^ k % 2 = 1
  · simpa [set] using real
  · simp [set]

namespace Width

variable (w : Width)

theorem toBitVec_msb : w.msb.toBitVec = BitVec.twoPow 32 (w.bits - 1) := by
  cases w <;> decide

theorem and_msb_ne_zero (x : UInt32) :
    (x &&& w.msb != 0) = true ↔ x.toNat / 2 ^ (w.bits - 1) % 2 = 1 := by
  have bounds := w.bits_bounds
  exact and_place_ne_zero x w.toBitVec_msb (by omega)

/-- Bits above the operand are there if the number is too large for it. -/
theorem and_not_mask_ne_zero (t : UInt32) :
    (t &&& ~~~w.mask != 0) = decide (2 ^ w.bits ≤ t.toNat) := by
  have inside : t &&& ~~~w.mask = 0 ↔ t &&& w.mask = t := by
    constructor
    · intro none
      have parts : t = t &&& w.mask ||| t &&& ~~~w.mask := by
        apply UInt32.toBitVec_inj.1
        rw [UInt32.toBitVec_or, UInt32.toBitVec_and, UInt32.toBitVec_and, UInt32.toBitVec_not,
          ← BitVec.and_or_distrib_left, BitVec.or_not_self, BitVec.and_allOnes]
      rw [none, UInt32.or_zero] at parts
      exact parts.symm
    · intro whole
      rw [← whole, UInt32.and_assoc, UInt32.and_not_self, UInt32.and_zero]
  have number : t &&& w.mask = t ↔ t.toNat < 2 ^ w.bits := by
    rw [← UInt32.toNat_inj, w.toNat_mask]
    exact ⟨fun same => same ▸ Nat.mod_lt _ (Nat.two_pow_pos _), Nat.mod_eq_of_lt⟩
  rw [Bool.eq_iff_iff, bne_iff_ne, decide_eq_true_iff, ne_eq, inside, number, Nat.not_lt]

theorem mask_and_mask (t : UInt32) : t &&& w.mask &&& w.mask = t &&& w.mask := by
  rw [UInt32.and_assoc, UInt32.and_self]

theorem mask_and_msb (t : UInt32) : t &&& w.mask &&& w.msb = t &&& w.msb := by
  have within : w.mask &&& w.msb = w.msb := by cases w <;> decide
  rw [UInt32.and_assoc, within]

theorem toUInt8_and_mask (t : UInt32) : (t &&& w.mask).toUInt8 = t.toUInt8 := by
  apply UInt8.toNat_inj.1
  rw [UInt32.toNat_toUInt8, UInt32.toNat_toUInt8, w.toNat_mask]
  cases w with
  | byte => exact Nat.mod_mod _ _
  | word => exact Nat.mod_mod_of_dvd _ (by decide)

/-- The operand in the low bits of a result. -/
theorem widen_setWidth (t : UInt32) : w.widen (t.toBitVec.setWidth w.bits) = t &&& w.mask := by
  apply UInt32.toNat_inj.1
  rw [toNat_widen, BitVec.toNat_setWidth, w.toNat_mask]
  rfl

/-- The operand with the number `x` stands for `s` if it is signed: with the sign bit set it is
lower by the whole range. -/
def Reads (x : Nat) (s : Int) : Prop :=
  x < 2 ^ w.bits ∧
    (2 * x < 2 ^ w.bits ∧ s = x ∨ 2 ^ w.bits ≤ 2 * x ∧ s = x - 2 ^ w.bits)

theorem reads_operand (a : UInt16) : w.Reads (a.toUInt32 &&& w.mask).toNat (w.value true a) := by
  rw [toNat_and_mask, value_signed, BitVec.toInt_eq_toNat_cond, toNat_operand]
  refine ⟨Nat.mod_lt _ (Nat.two_pow_pos _), ?_⟩
  split
  next low => exact .inl ⟨low, rfl⟩
  next high => exact .inr ⟨Nat.le_of_not_lt high, by norm_cast⟩

variable {w} {x y c t : Nat} {r s : Int}

/-- The sum of two operands of one sign overflows if it has the other sign. -/
theorem sum_overflows (first : w.Reads x r) (second : w.Reads y s) (low : c ≤ 1)
    (sum : t = x + y + c) :
    ¬ (t / 2 ^ (w.bits - 1) % 2 = 1 ↔ x / 2 ^ (w.bits - 1) % 2 = 1) ∧
        ¬ (t / 2 ^ (w.bits - 1) % 2 = 1 ↔ y / 2 ^ (w.bits - 1) % 2 = 1) ↔
      ¬ w.Holds true (r + s + c) := by
  cases w with
  | byte =>
    simp only [Reads, bits, Holds, if_true] at *
    omega
  | word =>
    simp only [Reads, bits, Holds, if_true] at *
    omega

/-- The difference of two operands of different signs overflows if it has not the sign of the
first. -/
theorem difference_overflows (first : w.Reads x r) (second : w.Reads y s) (low : c ≤ 1)
    (difference : t + y + c = x ∨ t + y + c = x + 2 ^ 32) :
    ¬ (t / 2 ^ (w.bits - 1) % 2 = 1 ↔ x / 2 ^ (w.bits - 1) % 2 = 1) ∧
        ¬ (x / 2 ^ (w.bits - 1) % 2 = 1 ↔ y / 2 ^ (w.bits - 1) % 2 = 1) ↔
      ¬ w.Holds true (r - s - c) := by
  cases w with
  | byte =>
    simp only [Reads, bits, Holds, if_true] at *
    omega
  | word =>
    simp only [Reads, bits, Holds, if_true] at *
    omega

end Width

namespace Flags

/-- The low four bits of an operand. -/
def digit (x : UInt16) : Nat :=
  x.toNat % 16

/-- A result with its flags: `n` is the exact number if the operands are unsigned, and `s` if they
are signed. Something is carried or borrowed out of the operand if `out`, and out of its low four
bits if `half`. -/
structure Computes (f : Flags) (w : Width) (n s : Int) (out half : Prop)
    (r : UInt16 × Flags) : Prop where
  result : (r.1.toNat : Int) = n % 2 ^ w.bits
  carry : r.2.carry = true ↔ out
  overflow : r.2.overflow = true ↔ ¬ w.Holds true s
  auxCarry : r.2.auxCarry = true ↔ half
  reports : r.2.Reports w r.1
  trap : r.2.trap = f.trap
  interrupt : r.2.interrupt = f.interrupt
  direction : r.2.direction = f.direction

/-- A sum is carried out of what it is too large for. -/
def Adds (f : Flags) (w : Width) (a b : UInt16) (c : Bool) : UInt16 × Flags → Prop :=
  f.Computes w (w.value false a + w.value false b + c.toNat)
    (w.value true a + w.value true b + c.toNat)
    (2 ^ w.bits ≤ w.value false a + w.value false b + c.toNat)
    (16 ≤ digit a + digit b + c.toNat)

/-- A difference borrows if the subtrahend and the borrow that comes in are too large. -/
def Subtracts (f : Flags) (w : Width) (a b : UInt16) (c : Bool) : UInt16 × Flags → Prop :=
  f.Computes w (w.value false a - w.value false b - c.toNat)
    (w.value true a - w.value true b - c.toNat)
    (w.value false a < w.value false b + c.toNat)
    (digit a < digit b + c.toNat)

/-- A bitwise result has no carry and no overflow, and leaves the auxiliary carry as it was. -/
structure Combines (f : Flags) (w : Width) (x : UInt16) (r : UInt16 × Flags) : Prop where
  result : r.1.toNat = x.toNat % 2 ^ w.bits
  carry : r.2.carry = false
  overflow : r.2.overflow = false
  auxCarry : r.2.auxCarry = f.auxCarry
  reports : r.2.Reports w r.1
  trap : r.2.trap = f.trap
  interrupt : r.2.interrupt = f.interrupt
  direction : r.2.direction = f.direction

theorem withResult_and_mask (f : Flags) (w : Width) (t : UInt32) :
    f.withResult w (t &&& w.mask) = f.withResult w t := by
  rw [withResult, withResult, w.mask_and_mask, w.mask_and_msb, w.toUInt8_and_mask]

theorem reports_withResult (f : Flags) (w : Width) (t : UInt32) :
    (f.withResult w t).Reports w (t &&& w.mask).toUInt16 := by
  have operand := f.withResult_reports w (t.toBitVec.setWidth w.bits)
  rwa [Width.narrow, w.widen_setWidth, withResult_and_mask] at operand

theorem toNat_toUInt16_and_mask (w : Width) (t : UInt32) :
    (t &&& w.mask).toUInt16.toNat = t.toNat % 2 ^ w.bits := by
  have small : 2 ^ w.bits ≤ 2 ^ 16 := Nat.pow_le_pow_right (by decide) w.bits_bounds.2
  have cut : t.toNat % 2 ^ w.bits < 2 ^ w.bits := Nat.mod_lt _ (Nat.two_pow_pos _)
  rw [UInt32.toNat_toUInt16, w.toNat_mask, Nat.mod_eq_of_lt (Nat.lt_of_lt_of_le cut small)]

/-- What both operations make of a number in 32 bits and the two flags that are theirs. -/
theorem computes_of_number (f : Flags) (w : Width) (t : UInt32) {v h : Bool} {n s : Int}
    {out half : Prop} (number : (t.toNat : Int) % 2 ^ w.bits = n % 2 ^ w.bits)
    (carry : 2 ^ w.bits ≤ t.toNat ↔ out) (overflow : v = true ↔ ¬ w.Holds true s)
    (auxCarry : h = true ↔ half) :
    f.Computes w n s out half ((t &&& w.mask).toUInt16,
      { f with carry := t &&& ~~~w.mask != 0, overflow := v, auxCarry := h }.withResult w t) where
  result := by
    rw [toNat_toUInt16_and_mask, ← number]
    norm_cast
  carry := by
    rw [← carry, ← decide_eq_true_iff (p := _ ≤ _), ← w.and_not_mask_ne_zero]
    rfl
  overflow := overflow
  auxCarry := auxCarry
  reports := reports_withResult _ w t
  trap := rfl
  interrupt := rfl
  direction := rfl

theorem digit_and_mask (w : Width) (a : UInt16) :
    (a.toUInt32 &&& w.mask).toNat % 16 = digit a := by
  rw [w.toNat_and_mask, digit]
  cases w with
  | byte => exact Nat.mod_mod_of_dvd _ (by decide)
  | word => exact Nat.mod_mod_of_dvd _ (by decide)

theorem toNat_carry (c : Bool) : c.toUInt32.toNat = c.toNat := by
  cases c <;> rfl

/-- Bit 4 of the sum differs from that of the operands together if the low digits carry into it. -/
theorem adds_add (f : Flags) (w : Width) (a b : UInt16) (c : Bool) :
    f.Adds w a b c (f.add w a b c) := by
  have first := w.reads_operand a
  have second := w.reads_operand b
  have low : c.toNat ≤ 1 := Bool.toNat_le c
  have small : 2 ^ w.bits ≤ 2 ^ 16 := Nat.pow_le_pow_right (by decide) w.bits_bounds.2
  rw [Adds, add, Width.value_unsigned, Width.value_unsigned, ← w.toNat_and_mask,
    ← w.toNat_and_mask, ← digit_and_mask w, ← digit_and_mask w]
  generalize a.toUInt32 &&& w.mask = x at first ⊢
  generalize b.toUInt32 &&& w.mask = y at second ⊢
  have sum : (x + y + c.toUInt32).toNat = x.toNat + y.toNat + c.toNat := by
    rw [UInt32.toNat_add, UInt32.toNat_add, toNat_carry]
    have := first.1
    have := second.1
    omega
  refine computes_of_number f w _ ?_ ?_ ?_ ?_
  · rw [sum]
    norm_cast
  · rw [sum]
    norm_cast
  · rw [w.and_msb_ne_zero, ← Width.sum_overflows first second low sum]
    simp only [UInt32.toNat_and, UInt32.toNat_xor, Nat.and_div_two_pow, Nat.xor_div_two_pow,
      Nat.and_mod_two_eq_one, Nat.xor_mod_two_eq_one]
  · rw [and_place_ne_zero _ (k := 4) (by decide) (by decide)]
    simp only [UInt32.toNat_xor, Nat.xor_div_two_pow, Nat.xor_mod_two_eq_one, sum]
    omega

theorem subtracts_sub (f : Flags) (w : Width) (a b : UInt16) (c : Bool) :
    f.Subtracts w a b c (f.sub w a b c) := by
  have first := w.reads_operand a
  have second := w.reads_operand b
  have low : c.toNat ≤ 1 := Bool.toNat_le c
  have small : 2 ^ w.bits ≤ 2 ^ 16 := Nat.pow_le_pow_right (by decide) w.bits_bounds.2
  rw [Subtracts, sub, Width.value_unsigned, Width.value_unsigned, ← w.toNat_and_mask,
    ← w.toNat_and_mask, ← digit_and_mask w, ← digit_and_mask w]
  generalize a.toUInt32 &&& w.mask = x at first ⊢
  generalize b.toUInt32 &&& w.mask = y at second ⊢
  have difference : (x - y - c.toUInt32).toNat + y.toNat + c.toNat = x.toNat ∨
      (x - y - c.toUInt32).toNat + y.toNat + c.toNat = x.toNat + 2 ^ 32 := by
    rw [UInt32.toNat_sub, UInt32.toNat_sub, toNat_carry]
    have := first.1
    have := second.1
    omega
  refine computes_of_number f w _ ?_ ?_ ?_ ?_
  · cases w <;> simp only [Width.bits] <;> omega
  · have := first.1
    have := second.1
    have := (x - y - c.toUInt32).toNat_lt
    omega
  · rw [w.and_msb_ne_zero, ← Width.difference_overflows first second low difference]
    simp only [UInt32.toNat_and, UInt32.toNat_xor, Nat.and_div_two_pow, Nat.xor_div_two_pow,
      Nat.and_mod_two_eq_one, Nat.xor_mod_two_eq_one]
  · rw [and_place_ne_zero _ (k := 4) (by decide) (by decide)]
    simp only [UInt32.toNat_xor, Nat.xor_div_two_pow, Nat.xor_mod_two_eq_one]
    omega

theorem combines_logical (f : Flags) (w : Width) (x : UInt16) :
    f.Combines w x (f.logical w x.toUInt32) where
  result := toNat_toUInt16_and_mask w x.toUInt32
  carry := rfl
  overflow := rfl
  auxCarry := rfl
  reports := reports_withResult _ w _
  trap := rfl
  interrupt := rfl
  direction := rfl

end Flags

/-- What an operation leaves: its result, if it has one, and the flags. Only two of them look at
the carry that comes in. -/
def AluOp.Leaves (op : AluOp) (f : Flags) (w : Width) (a b : UInt16)
    (r : Option UInt16 × Flags) : Prop :=
  match op with
  | add => ∃ y, r.1 = some y ∧ f.Adds w a b false (y, r.2)
  | adc => ∃ y, r.1 = some y ∧ f.Adds w a b f.carry (y, r.2)
  | sub => ∃ y, r.1 = some y ∧ f.Subtracts w a b false (y, r.2)
  | sbb => ∃ y, r.1 = some y ∧ f.Subtracts w a b f.carry (y, r.2)
  | cmp => r.1 = none ∧ ∃ y, f.Subtracts w a b false (y, r.2)
  | and => ∃ y, r.1 = some y ∧ f.Combines w (a &&& b) (y, r.2)
  | or => ∃ y, r.1 = some y ∧ f.Combines w (a ||| b) (y, r.2)
  | xor => ∃ y, r.1 = some y ∧ f.Combines w (a ^^^ b) (y, r.2)

/-- Sums and differences are those of the integers, for any operands and either carry, and the
eight operations are made of them and of the bitwise ones. -/
theorem Flags.alu_exact (f : Flags) (w : Width) (a b : UInt16) :
    (∀ c, f.Adds w a b c (f.add w a b c)) ∧ (∀ c, f.Subtracts w a b c (f.sub w a b c)) ∧
      ∀ op : AluOp, op.Leaves f w a b (f.alu op w a b) := by
  refine ⟨f.adds_add w a b, f.subtracts_sub w a b, ?_⟩
  intro op
  cases op with
  | add | adc => exact ⟨_, rfl, f.adds_add w a b _⟩
  | sub | sbb => exact ⟨_, rfl, f.subtracts_sub w a b _⟩
  | cmp => exact ⟨rfl, _, f.subtracts_sub w a b false⟩
  | and | or | xor => exact ⟨_, rfl, f.combines_logical w _⟩

end RealMode
