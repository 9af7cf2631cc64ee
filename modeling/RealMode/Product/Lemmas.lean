import RealMode.Product
import RealMode.Width.Lemmas

/-!
Products and quotients are exact. A product of double width never overflows, its upper half counts
if the lower half alone is another number, and quotient and remainder are those of the division that
cuts toward zero.
-/

namespace RealMode
namespace Product

theorem unsigned_exact (w : Width) (a b : UInt16) :
    w.double false (unsigned w a b).high (unsigned w a b).low =
      w.value false a * w.value false b ∧
    (unsigned w a b).wide =
      decide (w.upper (unsigned w a b).high (unsigned w a b).low ≠ 0) := by
  simp only [w.upper_ne_zero]
  cases w with
  | byte =>
    have small : a.toNat % 256 * (b.toNat % 256) ≤ 255 * 255 :=
      Nat.mul_le_mul (by omega) (by omega)
    have product : (Width.byte.trim a * Width.byte.trim b).toNat =
        a.toNat % 256 * (b.toNat % 256) := by
      rw [UInt16.toNat_mul, Width.toNat_trim, Width.toNat_trim]
      exact Nat.mod_eq_of_lt (Nat.lt_of_le_of_lt small (by decide))
    have exact : Width.byte.double false (unsigned .byte a b).high (unsigned .byte a b).low =
        (a.toNat % 256 * (b.toNat % 256) : Nat) := by
      rw [← product]
      exact Width.value_word _
    rw [exact, Width.value_unsigned, Width.value_unsigned]
    refine ⟨Int.natCast_mul _ _, decide_eq_decide.2 ?_⟩
    rw [← product]
    exact Int.ofNat_lt.symm
  | word =>
    have ha := a.toNat_lt
    have hb := b.toNat_lt
    have small : a.toNat * b.toNat ≤ 65535 * 65535 := Nat.mul_le_mul (by omega) (by omega)
    have product : (a.toUInt32 * b.toUInt32).toNat = a.toNat * b.toNat := by
      rw [UInt32.toNat_mul]
      exact Nat.mod_eq_of_lt (Nat.lt_of_le_of_lt small (by decide))
    have exact : Width.word.double false (unsigned .word a b).high (unsigned .word a b).low =
        (a.toNat * b.toNat : Nat) := by
      rw [← product]
      exact Width.double_halves _
    rw [exact, Width.value_word, Width.value_word]
    refine ⟨Int.natCast_mul _ _, decide_eq_decide.2 ?_⟩
    rw [← product]
    exact Int.ofNat_lt.symm

theorem signed_bounds (w : Width) (a b : UInt16) :
    -2 ^ (w.bits * 2 - 2) ≤ w.signed a * w.signed b ∧
      w.signed a * w.signed b ≤ 2 ^ (w.bits * 2 - 2) := by
  rw [w.signed_eq, w.signed_eq]
  exact ⟨BitVec.le_toInt_mul_toInt, BitVec.toInt_mul_toInt_le⟩

theorem signed_double (w : Width) (a b : UInt16) :
    w.double true (signed w a b).high (signed w a b).low = w.signed a * w.signed b := by
  have bounds := signed_bounds w a b
  cases w with
  | byte =>
    apply Width.value_ofInt
    simp only [Width.bits] at bounds
    simp only [Width.Holds, Width.bits, if_true]
    omega
  | word =>
    rw [signed]
    generalize Width.word.signed a * Width.word.signed b = p at *
    simp only [Width.bits] at bounds
    have high : Width.word.value true (UInt16.ofInt (p / 0x10000)) = p / 0x10000 := by
      apply Width.value_ofInt
      simp only [Width.Holds, Width.bits, if_true]
      omega
    rw [Width.double, high, Width.toNat_ofInt]
    omega

theorem signed_exact (w : Width) (a b : UInt16) :
    w.double true (signed w a b).high (signed w a b).low =
      w.value true a * w.value true b ∧
    (signed w a b).wide =
      decide (w.double true (signed w a b).high (signed w a b).low ≠
        w.value true (signed w a b).low) := by
  refine ⟨signed_double w a b, ?_⟩
  have low : (signed w a b).low = UInt16.ofInt (w.signed a * w.signed b) := rfl
  have wide : (signed w a b).wide = !w.holdsSigned (w.signed a * w.signed b) := rfl
  rw [signed_double, low, wide]
  generalize w.signed a * w.signed b = p
  have fits : w.holdsSigned p = true ↔ p = w.value true (UInt16.ofInt p) := by
    rw [w.holdsSigned_iff]
    constructor
    · exact fun holds => (Width.value_ofInt holds).symm
    · intro same
      rw [same]
      exact w.holds_value true _
  simp [← fits]

theorem exact (w : Width) (sign : Bool) (a b : UInt16) :
    let p := if sign then signed w a b else unsigned w a b
    w.double sign p.high p.low = w.value sign a * w.value sign b ∧
      p.wide =
        if sign then decide (w.double true p.high p.low ≠ w.value true p.low)
        else decide (w.upper p.high p.low ≠ 0) := by
  cases sign with
  | false => exact unsigned_exact w a b
  | true => exact signed_exact w a b

end Product

namespace Quotient

/-- A quotient is cut toward zero, and there is none if it does not fit its half. -/
def Exact (w : Width) (signed : Bool) (n d : Int) : Option Quotient → Prop
  | none => d = 0 ∨ ¬ w.Holds signed (n.tdiv d)
  | some q =>
    d ≠ 0 ∧ w.Holds signed (n.tdiv d) ∧ w.value signed q.quotient = n.tdiv d ∧
      w.value signed q.remainder = n.tmod d

theorem unsigned?_exact (w : Width) (n : UInt32) (divisor : UInt16) :
    Exact w false n.toNat (w.value false divisor) (unsigned? w n divisor) := by
  have number : w.value false divisor = ((divisor.toUInt32 &&& w.mask).toNat : Int) := by
    rw [w.value_unsigned, w.toNat_and_mask]
  have bound : (divisor.toUInt32 &&& w.mask).toNat < 2 ^ w.bits := by
    rw [w.toNat_and_mask]
    exact Nat.mod_lt _ (Nat.two_pow_pos _)
  have mask : w.mask.toNat + 1 = 2 ^ w.bits := by cases w <;> rfl
  rw [unsigned?, number]
  generalize divisor.toUInt32 &&& w.mask = d at bound
  have quotient : (n.toNat : Int).tdiv d.toNat = ((n / d).toNat : Int) := by
    rw [UInt32.toNat_div]
    exact (Int.ofNat_tdiv _ _).symm
  have remainder : (n.toNat : Int).tmod d.toNat = ((n % d).toNat : Int) := by
    rw [UInt32.toNat_mod]
    exact (Int.ofNat_tmod _ _).symm
  have holds : w.Holds false ((n.toNat : Int).tdiv d.toNat) ↔ ¬ n / d > w.mask := by
    rw [quotient, w.holds_unsigned, gt_iff_lt, UInt32.lt_iff_toNat_lt]
    omega
  split
  next zero =>
    rw [zero]
    exact .inl rfl
  next nonzero =>
    split
    next large => exact .inr fun fits => holds.1 fits large
    next small =>
      have positive : 0 < d.toNat := by
        apply Nat.pos_of_ne_zero
        intro zero
        exact nonzero (UInt32.toNat_inj.1 zero)
      have fits := holds.2 small
      rw [Exact, quotient, remainder]
      rw [quotient, w.holds_unsigned] at fits
      have long := Width.value_toUInt16 fits
      refine ⟨by omega, (w.holds_unsigned _).2 fits, long, Width.value_toUInt16 ?_⟩
      have less := Nat.mod_lt n.toNat positive
      rw [UInt32.toNat_mod]
      omega

theorem holds_tmod {w : Width} {n d : Int} (nonzero : d ≠ 0) (fits : w.Holds true d) :
    w.Holds true (n.tmod d) := by
  have size := Int.natAbs_tmod n d
  have less := Nat.mod_lt n.natAbs (Int.natAbs_pos.2 nonzero)
  have bounds : -2 ^ (w.bits - 1) ≤ d ∧ d < 2 ^ (w.bits - 1) := fits
  constructor
  · omega
  · omega

theorem signed?_exact (w : Width) (n : UInt32) (divisor : UInt16) :
    Exact w true (signedDividend w n) (w.value true divisor) (signed? w n divisor) := by
  have holds := w.holds_value true divisor
  have number : w.value true divisor = w.signed divisor := rfl
  rw [signed?, number]
  rw [number] at holds
  generalize w.signed divisor = d at holds
  generalize signedDividend w n = m
  have trimmed {k : Int} (fits : w.Holds true k) :
      w.value true (w.trim (UInt16.ofInt k)) = k := by
    rw [w.value_signed, w.operand_trim, ← w.value_signed, Width.value_ofInt fits]
  split
  next zero => exact .inl zero
  next nonzero =>
    split
    next fits =>
      rw [w.holdsSigned_iff] at fits
      exact ⟨nonzero, fits, trimmed fits, trimmed (holds_tmod nonzero holds)⟩
    next large =>
      rw [w.holdsSigned_iff] at large
      exact .inr large

end Quotient
end RealMode
