import Mathlib.Algebra.Group.Int.Defs
import Mathlib.Algebra.Group.Nat.Defs
import RealMode.Width
import RealMode.Word

/-!
The operands of either size as bit vectors and as numbers, signed or not. A number of double width
lies in AX for bytes, and in DX and AX for words.
-/

namespace RealMode
namespace Width

/-- The number of bits of an operand. -/
def bits : Width → Nat
  | .byte => 8
  | .word => 16

theorem bits_bounds (w : Width) : 8 ≤ w.bits ∧ w.bits ≤ 16 := by
  cases w with
  | byte => decide
  | word => decide

theorem bits_pos (w : Width) : 0 < w.bits := by
  have bounds := w.bits_bounds
  omega

theorem getElem_mask (w : Width) {i : Nat} (inside : i < 32) :
    w.mask.toBitVec[i] = decide (i < w.bits) := by
  cases w with
  | byte => revert i; decide
  | word => revert i; decide

theorem getElem_msb (w : Width) {i : Nat} (inside : i < 32) :
    w.msb.toBitVec[i] = decide (i + 1 = w.bits) := by
  cases w with
  | byte => revert i; decide
  | word => revert i; decide

/-- The low bits of a word, as many as an operand has. -/
def operand (w : Width) (x : UInt16) : BitVec w.bits :=
  x.toBitVec.setWidth w.bits

theorem toNat_operand (w : Width) (x : UInt16) : (w.operand x).toNat = x.toNat % 2 ^ w.bits :=
  BitVec.toNat_setWidth _ _

theorem toNat_operand_of_lt {w : Width} {x : UInt16} (fits : x.toNat < 2 ^ w.bits) :
    (w.operand x).toNat = x.toNat := by
  rw [toNat_operand, Nat.mod_eq_of_lt fits]

theorem signed_eq (w : Width) (x : UInt16) : w.signed x = (w.operand x).toInt := by
  cases w with
  | byte => rfl
  | word =>
    have whole : Width.word.operand x = x.toBitVec := BitVec.setWidth_eq x.toBitVec
    rw [whole]
    rfl

theorem toNat_mask (w : Width) (t : UInt32) : (t &&& w.mask).toNat = t.toNat % 2 ^ w.bits := by
  have mask : w.mask.toNat = 2 ^ w.bits - 1 := by cases w <;> rfl
  rw [UInt32.toNat_and, mask, Nat.and_two_pow_sub_one_eq_mod]

theorem toNat_and_mask (w : Width) (x : UInt16) :
    (x.toUInt32 &&& w.mask).toNat = x.toNat % 2 ^ w.bits := by
  rw [toNat_mask, UInt16.toNat_toUInt32]

theorem toNat_trim (w : Width) (x : UInt16) : (w.trim x).toNat = x.toNat % 2 ^ w.bits := by
  have mask : w.mask.toUInt16.toNat = 2 ^ w.bits - 1 := by cases w <;> rfl
  rw [trim, UInt16.toNat_and, mask, Nat.and_two_pow_sub_one_eq_mod]

theorem trim_word (x : UInt16) : word.trim x = x := by
  apply UInt16.toNat_inj.1
  rw [toNat_trim]
  exact Nat.mod_eq_of_lt x.toNat_lt

theorem toUInt16_lowByte (x : UInt16) : (lowByte x).toUInt16 = byte.trim x := by
  apply UInt16.toNat_inj.1
  rw [UInt8.toNat_toUInt16, toNat_lowByte, toNat_trim]
  rfl

theorem operand_trim (w : Width) (x : UInt16) : w.operand (w.trim x) = w.operand x := by
  apply BitVec.eq_of_toNat_eq
  rw [toNat_operand, toNat_operand, toNat_trim, Nat.mod_mod]

theorem toNat_toUInt16_lt (x : UInt8) : x.toUInt16.toNat < 2 ^ byte.bits := by
  rw [UInt8.toNat_toUInt16]
  exact x.toNat_lt

theorem toNat_ofInt (n : Int) : ((UInt16.ofInt n).toNat : Int) = n % 0x10000 := by
  rw [UInt16.ofInt, UInt16.toNat_ofNat']
  omega

theorem operand_ofInt (w : Width) (n : Int) :
    w.operand (UInt16.ofInt n) = BitVec.ofInt w.bits n := by
  apply BitVec.eq_of_toNat_eq
  rw [toNat_operand, BitVec.toNat_ofInt]
  have number := toNat_ofInt n
  cases w with
  | byte => simp only [bits]; omega
  | word => simp only [bits]; omega

/-- The number that an operand stands for. -/
def value (w : Width) (signed : Bool) (x : UInt16) : Int :=
  if signed then w.signed x else (w.operand x).toNat

/-- Whether some operand stands for this number. -/
def Holds (w : Width) (signed : Bool) (n : Int) : Prop :=
  if signed then -2 ^ (w.bits - 1) ≤ n ∧ n < 2 ^ (w.bits - 1) else 0 ≤ n ∧ n < 2 ^ w.bits

instance (w : Width) (signed : Bool) (n : Int) : Decidable (w.Holds signed n) :=
  inferInstanceAs (Decidable (ite _ _ _))

/-- The number of double width in AX, or in DX and AX. -/
def double (w : Width) (signed : Bool) (dx ax : UInt16) : Int :=
  match w with
  | .byte => Width.word.value signed ax
  | .word => Width.word.value signed dx * 0x10000 + ax.toNat

/-- The upper half of AX, or of DX and AX. -/
def upper (w : Width) (dx ax : UInt16) : UInt16 :=
  match w with
  | .byte => (highByte ax).toUInt16
  | .word => dx

theorem value_unsigned (w : Width) (x : UInt16) :
    w.value false x = ((x.toNat % 2 ^ w.bits : Nat) : Int) :=
  congrArg Int.ofNat (w.toNat_operand x)

theorem value_signed (w : Width) (x : UInt16) : w.value true x = (w.operand x).toInt :=
  w.signed_eq x

/-- What lies above an operand does not count. -/
theorem value_congr (w : Width) (signed : Bool) {x y : UInt16}
    (same : x.toNat % 2 ^ w.bits = y.toNat % 2 ^ w.bits) :
    w.value signed x = w.value signed y := by
  have operands : w.operand x = w.operand y := by
    apply BitVec.eq_of_toNat_eq
    rw [toNat_operand, toNat_operand, same]
  rw [value, value, signed_eq, signed_eq, operands]

theorem value_word (x : UInt16) : Width.word.value false x = x.toNat := by
  rw [value_unsigned]
  exact congrArg Int.ofNat (Nat.mod_eq_of_lt x.toNat_lt)

theorem holds_value (w : Width) (signed : Bool) (x : UInt16) :
    w.Holds signed (w.value signed x) := by
  cases signed with
  | false =>
    have bound : ((w.operand x).toNat : Int) < 2 ^ w.bits := by exact_mod_cast (w.operand x).isLt
    exact ⟨Int.natCast_nonneg _, bound⟩
  | true =>
    rw [value_signed]
    exact ⟨BitVec.le_toInt _, BitVec.toInt_lt⟩

theorem holdsSigned_iff (w : Width) (n : Int) : w.holdsSigned n = true ↔ w.Holds true n := by
  cases w with
  | byte =>
    simp [holdsSigned, Holds, bits]
    omega
  | word =>
    simp [holdsSigned, Holds, bits]
    omega

theorem value_ofInt {w : Width} {n : Int} (fits : w.Holds true n) :
    w.value true (UInt16.ofInt n) = n := by
  rw [value_signed, operand_ofInt]
  exact BitVec.toInt_ofInt_eq_self w.bits_pos fits.1 fits.2

theorem upper_ne_zero (w : Width) (dx ax : UInt16) :
    w.upper dx ax ≠ 0 ↔ 2 ^ w.bits ≤ w.double false dx ax := by
  have bound := ax.toNat_lt
  rw [ne_eq, ← UInt16.toNat_inj]
  cases w with
  | byte =>
    rw [upper, UInt8.toNat_toUInt16, toNat_highByte, double, value_word]
    simp only [bits, UInt16.toNat_zero]
    omega
  | word =>
    rw [upper, double, value_word]
    simp only [bits, UInt16.toNat_zero]
    omega

/-- A number in two halves. -/
theorem double_halves (n : UInt32) :
    Width.word.double false (n >>> 16).toUInt16 n.toUInt16 = n.toNat := by
  have bound := n.toNat_lt
  have high : (n >>> 16).toUInt16.toNat = n.toNat / 65536 := by
    rw [UInt32.toNat_toUInt16, UInt32.toNat_shiftRight]
    change n.toNat >>> 16 % 2 ^ 16 = _
    rw [Nat.shiftRight_eq_div_pow]
    omega
  rw [double, value_word, high, UInt32.toNat_toUInt16]
  omega

theorem value_toUInt16 {w : Width} {n : UInt32} (fits : n.toNat < 2 ^ w.bits) :
    w.value false n.toUInt16 = n.toNat := by
  have bounds := w.bits_bounds
  have small : 2 ^ w.bits ≤ 2 ^ 16 := Nat.pow_le_pow_right (by decide) bounds.2
  rw [value_unsigned, UInt32.toNat_toUInt16, Nat.mod_eq_of_lt (Nat.lt_of_lt_of_le fits small),
    Nat.mod_eq_of_lt fits]

theorem holds_unsigned (w : Width) (n : Nat) : w.Holds false n ↔ n < 2 ^ w.bits := by
  have cast : ((n : Int) < 2 ^ w.bits) ↔ n < 2 ^ w.bits := by
    exact_mod_cast Iff.rfl
  constructor
  · exact fun holds => cast.1 holds.2
  · exact fun fits => ⟨Int.natCast_nonneg n, cast.2 fits⟩

end Width
end RealMode
