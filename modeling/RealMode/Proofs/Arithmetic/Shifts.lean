import Mathlib.Logic.Function.Iterate
import RealMode.Flags.Shift
import RealMode.Proofs.Arithmetic.Rotation
import RealMode.Width.Lemmas
import RealMode.Word

/-!
Shifts and rotates in closed form. The loop over single-bit steps is a loop on a bit vector and the
carry, whose steps are shifts and rotations by one; these add up to a shift or a rotation by the
count. The flags of the result are those of the last step.
-/

namespace RealMode

theorem evenParity_eq (b : UInt8) :
    evenParity b = decide ((List.range 8).countP (b.toNat.testBit ·) % 2 = 0) := by
  revert b
  apply forall_byte
  decide +kernel

namespace Flags

theorem getElem_setIf (b : Bool) (place : UInt32) {i : Nat} (inside : i < 32) :
    (setIf b place).toBitVec[i] = (b && place.toBitVec[i]) := by
  cases b with
  | false => simp [setIf]
  | true => simp [setIf]

theorem setIf_ne_zero (b : Bool) {place : UInt32} (real : place ≠ 0) :
    (setIf b place != 0) = b := by
  cases b with
  | false => rfl
  | true => simpa [setIf] using real

end Flags

namespace Width

open Flags

variable (w : Width)

theorem msb_ne_zero : w.msb ≠ 0 := by
  cases w with
  | byte => decide
  | word => decide

/-- An operand in the 32 bits in which results are computed. -/
def widen (x : BitVec w.bits) : UInt32 :=
  .ofBitVec (x.setWidth 32)

theorem toNat_widen (x : BitVec w.bits) : (w.widen x).toNat = x.toNat := by
  have bounds := w.bits_bounds
  exact BitVec.toNat_setWidth_of_le (by omega)

/-- An operand in the word that instructions pass around. -/
def narrow (x : BitVec w.bits) : UInt16 :=
  (w.widen x).toUInt16

theorem toNat_narrow (x : BitVec w.bits) : (w.narrow x).toNat = x.toNat := by
  have bounds := w.bits_bounds
  have small : 2 ^ w.bits ≤ 2 ^ 16 := Nat.pow_le_pow_right (by decide) bounds.2
  have inside := x.isLt
  rw [narrow, UInt32.toNat_toUInt16, toNat_widen]
  omega

theorem operand_narrow (x : BitVec w.bits) : w.operand (w.narrow x) = x := by
  apply BitVec.eq_of_toNat_eq
  rw [toNat_operand, toNat_narrow, Nat.mod_eq_of_lt x.isLt]

theorem narrow_operand {x : UInt16} (fits : x.toNat < 2 ^ w.bits) :
    w.narrow (w.operand x) = x := by
  apply UInt16.toNat_inj.1
  rw [toNat_narrow, toNat_operand_of_lt fits]

theorem getElem_widen (x : BitVec w.bits) {i : Nat} (inside : i < 32) :
    (w.widen x).toBitVec[i] = x.getLsbD i :=
  BitVec.getElem_setWidth _ _ _ inside

theorem getLsbD_widen (x : BitVec w.bits) (i : Nat) :
    (w.widen x).toBitVec.getLsbD i = x.getLsbD i :=
  congrArg (Nat.testBit · i) (w.toNat_widen x)

theorem widen_operand (x : UInt16) : w.widen (w.operand x) = x.toUInt32 &&& w.mask := by
  apply UInt32.toNat_inj.1
  rw [toNat_widen, toNat_operand, toNat_and_mask]

theorem widen_and_mask (x : BitVec w.bits) : w.widen x &&& w.mask = w.widen x := by
  apply UInt32.toBitVec_inj.1
  ext i inside
  simp only [UInt32.toBitVec_and, BitVec.getElem_and, w.getElem_widen, w.getElem_mask]
  grind

theorem widen_and_msb (x : BitVec w.bits) : w.widen x &&& w.msb = setIf x.msb w.msb := by
  apply UInt32.toBitVec_inj.1
  ext i inside
  simp only [UInt32.toBitVec_and, BitVec.getElem_and, w.getElem_widen, w.getElem_msb,
    BitVec.msb_eq_getLsbD_last, getElem_setIf]
  grind

theorem widen_and_one (x : BitVec w.bits) : w.widen x &&& 1 = setIf (x.getLsbD 0) 1 := by
  apply UInt32.toBitVec_inj.1
  ext i inside
  simp only [UInt32.toBitVec_and, UInt32.toBitVec_ofNat, BitVec.getElem_and, w.getElem_widen,
    BitVec.getElem_one, getElem_setIf]
  grind

theorem widen_shiftConcat (x : BitVec w.bits) (b : Bool) :
    (w.widen x <<< 1 ||| setIf b 1) &&& w.mask = w.widen (x.shiftConcat b) := by
  apply UInt32.toBitVec_inj.1
  ext i inside
  simp [w.getElem_widen, w.getElem_mask, getElem_setIf, BitVec.getLsbD_shiftConcat]
  grind

theorem widen_shiftCons (x : BitVec w.bits) (b : Bool) :
    w.widen x >>> 1 ||| setIf b w.msb = w.widen (x.shiftCons b) := by
  have bounds := w.bits_bounds
  apply UInt32.toBitVec_inj.1
  ext i inside
  simp [w.getElem_widen, w.getLsbD_widen, w.getElem_msb, getElem_setIf, BitVec.getLsbD_shiftCons]
  grind

end Width

namespace ShiftOp

/-- The rotates leave the flags of the result alone. -/
def rotates : ShiftOp → Bool
  | rol | ror | rcl | rcr => true
  | shl | shr | sal | sar => false

section

variable {n : Nat}

/-- One step on a bit vector and the carry. -/
def step (op : ShiftOp) (s : BitVec n × Bool) : BitVec n × Bool :=
  let (x, carry) := s
  match op with
  | rol => (x.shiftConcat x.msb, x.msb)
  | ror => (x.shiftCons (x.getLsbD 0), x.getLsbD 0)
  | rcl => (x.shiftConcat carry, x.msb)
  | rcr => (x.shiftCons carry, x.getLsbD 0)
  | shl | sal => (x.shiftConcat false, x.msb)
  | shr => (x.shiftCons false, x.getLsbD 0)
  | sar => (x.shiftCons x.msb, x.getLsbD 0)

/-- The bit that a step moves out, which is the carry after it. -/
def out (op : ShiftOp) (x : BitVec n) : Bool :=
  (op.step (x, false)).2

theorem step_carry (op : ShiftOp) (s : BitVec n × Bool) : (op.step s).2 = op.out s.1 := by
  cases op <;> rfl

theorem iterate_succ_carry (op : ShiftOp) (k : Nat) (s : BitVec n × Bool) :
    (op.step^[k + 1] s).2 = op.out (op.step^[k] s).1 := by
  rw [Function.iterate_succ_apply', step_carry]

/-- Whatever every step moves on by one is moved on by the count. -/
theorem iterate_view {α : Type} (op : ShiftOp) (view : BitVec n × Bool → α) (move : Nat → α)
    (s : BitVec n × Bool) (start : view s = move 0)
    (next : ∀ t k, view t = move k → view (op.step t) = move (k + 1)) (k : Nat) :
    view (op.step^[k] s) = move k := by
  induction k with
  | zero => exact start
  | succ k ih =>
    rw [Function.iterate_succ_apply']
    exact next _ k ih

variable (x : BitVec n) (carry : Bool) (k : Nat)

theorem iterate_rol : (rol.step^[k] (x, carry)).1 = x.rotateLeft k := by
  refine iterate_view rol (·.1) x.rotateLeft (x, carry) x.rotateLeft_zero.symm ?_ k
  intro t k here
  rw [BitVec.rotateLeft_add, ← here]
  exact BitVec.shiftConcat_msb _

theorem iterate_ror : (ror.step^[k] (x, carry)).1 = x.rotateRight k := by
  refine iterate_view ror (·.1) x.rotateRight (x, carry) x.rotateRight_zero.symm ?_ k
  intro t k here
  rw [BitVec.rotateRight_add, ← here]
  exact BitVec.shiftCons_getLsbD_zero _

theorem iterate_shl : (shl.step^[k] (x, carry)).1 = x <<< k := by
  refine iterate_view shl (·.1) (x <<< ·) (x, carry) (BitVec.shiftLeft_zero x).symm ?_ k
  intro t k here
  rw [BitVec.shiftLeft_add, ← here]
  exact BitVec.shiftConcat_false _

theorem iterate_shr : (shr.step^[k] (x, carry)).1 = x >>> k := by
  refine iterate_view shr (·.1) (x >>> ·) (x, carry) (BitVec.ushiftRight_zero x).symm ?_ k
  intro t k here
  rw [BitVec.shiftRight_add, ← here]
  exact BitVec.shiftCons_false _

theorem iterate_sar : (sar.step^[k] (x, carry)).1 = x.sshiftRight k := by
  refine iterate_view sar (·.1) x.sshiftRight (x, carry) BitVec.sshiftRight_zero.symm ?_ k
  intro t k here
  rw [BitVec.sshiftRight_add, ← here]
  exact BitVec.shiftCons_msb _

theorem iterate_rcl (long : 0 < n) :
    BitVec.cons (rcl.step^[k] (x, carry)).2 (rcl.step^[k] (x, carry)).1 =
      (BitVec.cons carry x).rotateLeft k := by
  refine iterate_view rcl (fun s => BitVec.cons s.2 s.1) (BitVec.cons carry x).rotateLeft
    (x, carry) (BitVec.cons carry x).rotateLeft_zero.symm ?_ k
  intro t k here
  rw [BitVec.rotateLeft_add, ← here]
  exact BitVec.cons_shiftConcat _ _ long

theorem iterate_rcr (long : 0 < n) :
    BitVec.cons (rcr.step^[k] (x, carry)).2 (rcr.step^[k] (x, carry)).1 =
      (BitVec.cons carry x).rotateRight k := by
  refine iterate_view rcr (fun s => BitVec.cons s.2 s.1) (BitVec.cons carry x).rotateRight
    (x, carry) (BitVec.cons carry x).rotateRight_zero.symm ?_ k
  intro t k here
  rw [BitVec.rotateRight_add, ← here]
  exact BitVec.cons_shiftCons _ _ long

theorem iterate_rcr_rcl (long : 0 < n) :
    rcr.step^[k] (rcl.step^[k] (x, carry)) = (x, carry) := by
  have turned := iterate_rcr (rcl.step^[k] (x, carry)).1 (rcl.step^[k] (x, carry)).2 k long
  rw [iterate_rcl x carry k long, BitVec.rotateRight_rotateLeft] at turned
  have bits := congrArg (BitVec.setWidth n) turned
  have top := congrArg BitVec.msb turned
  rw [BitVec.setWidth_cons, BitVec.setWidth_cons] at bits
  rw [BitVec.msb_cons, BitVec.msb_cons] at top
  exact Prod.ext bits top

/-- The bit that comes out of a rotation to the left comes in at the bottom. -/
theorem carry_rol (long : 0 < n) :
    (rol.step^[k + 1] (x, carry)).2 = (x.rotateLeft (k + 1)).getLsbD 0 := by
  rw [iterate_succ_carry, iterate_rol, BitVec.rotateLeft_add, ← BitVec.shiftConcat_msb,
    BitVec.getLsbD_shiftConcat, decide_eq_true long]
  rfl

theorem carry_ror (long : 0 < n) :
    (ror.step^[k + 1] (x, carry)).2 = (x.rotateRight (k + 1)).msb := by
  rw [iterate_succ_carry, iterate_ror, BitVec.rotateRight_add, ← BitVec.shiftCons_getLsbD_zero,
    BitVec.msb_shiftCons _ _ long]
  rfl

theorem carry_shl :
    (shl.step^[k + 1] (x, carry)).2 = (decide (k + 1 ≤ n) && x.getLsbD (n - (k + 1))) := by
  rw [iterate_succ_carry, iterate_shl]
  change (x <<< k).msb = _
  rw [BitVec.msb_eq_getLsbD_last, BitVec.getLsbD_shiftLeft]
  have place : n - 1 - k = n - (k + 1) := by omega
  by_cases within : k + 1 ≤ n
  · have above : ¬ n - 1 < k := by omega
    have inside : n - 1 < n := by omega
    simp [within, place, above, inside]
  · rw [decide_eq_false within, Bool.false_and]
    have outside : ¬ (n - 1 < n) ∨ n - 1 < k := by omega
    rcases outside with empty | above
    · rw [decide_eq_false empty, Bool.false_and, Bool.false_and]
    · rw [decide_eq_true above, Bool.not_true, Bool.and_false, Bool.false_and]

theorem carry_shr : (shr.step^[k + 1] (x, carry)).2 = x.getLsbD k := by
  rw [iterate_succ_carry, iterate_shr]
  exact BitVec.getLsbD_ushiftRight x k 0

theorem carry_sar (long : 0 < n) :
    (sar.step^[k + 1] (x, carry)).2 = decide (x.toInt / 2 ^ k % 2 = 1) := by
  rw [iterate_succ_carry, iterate_sar]
  change (x.sshiftRight k).getLsbD 0 = _
  rw [BitVec.getLsbD_zero_eq_odd _ long, BitVec.toInt_sshiftRight, Int.shiftRight_eq_div_pow]
  norm_cast

end

end ShiftOp

namespace Flags

/-- The flags of a result, if the operation sets them, with the carry. -/
def afterShift (op : ShiftOp) (w : Width) (s : BitVec w.bits × Bool) (f : Flags) : Flags :=
  { if op.rotates then f else (f.logical w (w.widen s.1)).2 with carry := s.2 }

theorem shiftBit_widen (op : ShiftOp) (w : Width) (x : BitVec w.bits) (f : Flags) :
    shiftBit op w (w.widen x, f) =
      (w.widen (op.step (x, f.carry)).1, f.afterShift op w (op.step (x, f.carry))) := by
  have top : (w.widen x &&& w.msb != 0) = x.msb := by
    rw [w.widen_and_msb, setIf_ne_zero _ w.msb_ne_zero]
  have bottom : (w.widen x &&& 1 != 0) = x.getLsbD 0 := by
    rw [w.widen_and_one, setIf_ne_zero _ (by decide)]
  have left := w.widen_shiftConcat x
  have right := w.widen_shiftCons x
  have left0 : w.widen x <<< 1 &&& w.mask = w.widen (x.shiftConcat false) := by
    simpa [setIf] using left false
  have right0 : w.widen x >>> 1 = w.widen (x.shiftCons false) := by
    simpa [setIf] using right false
  cases op with
  | rol | rcl | shl | sal =>
    simp [shiftBit, shifted, ShiftOp.step, ShiftOp.rotates, afterShift, top, left, left0]
  | ror | rcr => simp [shiftBit, ShiftOp.step, ShiftOp.rotates, afterShift, bottom, right]
  | shr => simp [shiftBit, shifted, ShiftOp.step, ShiftOp.rotates, afterShift, bottom, right0]
  | sar =>
    simp [shiftBit, shifted, ShiftOp.step, ShiftOp.rotates, afterShift, bottom, w.widen_and_msb,
      right]

theorem afterShift_afterShift (op : ShiftOp) (w : Width) (s t : BitVec w.bits × Bool) (f : Flags) :
    (f.afterShift op w s).afterShift op w t = f.afterShift op w t := by
  cases op <;> rfl

theorem shiftBits_widen (op : ShiftOp) (w : Width) (k : Nat) (x : BitVec w.bits) (f : Flags) :
    shiftBits op w (k + 1) (w.widen x, f) =
      (w.widen (op.step^[k + 1] (x, f.carry)).1,
        f.afterShift op w (op.step^[k + 1] (x, f.carry))) := by
  induction k generalizing x f with
  | zero => exact shiftBit_widen op w x f
  | succ k ih =>
    have carried : (f.afterShift op w (op.step (x, f.carry))).carry =
        (op.step (x, f.carry)).2 := rfl
    rw [shiftBits, shiftBit_widen, ih, carried, afterShift_afterShift,
      Function.iterate_succ_apply _ (k + 1)]

end Flags

namespace ShiftOp

/-- What a count leaves of an operand and the carry: the new operand and the bit last moved. -/
def Leaves (op : ShiftOp) (w : Width) (x : UInt16) (carry : Bool) (count : Nat)
    (y : UInt16) (out : Bool) : Prop :=
  match op with
  | rol =>
    w.operand y = (w.operand x).rotateLeft (count % w.bits) ∧ out = (w.operand y).getLsbD 0
  | ror =>
    w.operand y = (w.operand x).rotateRight (count % w.bits) ∧ out = (w.operand y).msb
  | rcl =>
    BitVec.cons out (w.operand y) =
      (BitVec.cons carry (w.operand x)).rotateLeft (count % (w.bits + 1))
  | rcr =>
    BitVec.cons out (w.operand y) =
      (BitVec.cons carry (w.operand x)).rotateRight (count % (w.bits + 1))
  | shl | sal =>
    y.toNat = x.toNat * 2 ^ count % 2 ^ w.bits ∧
      out = (decide (count ≤ w.bits) && x.toNat.testBit (w.bits - count))
  | shr =>
    y.toNat = x.toNat / 2 ^ count ∧
      out = (decide (count ≤ w.bits) && x.toNat.testBit (count - 1))
  | sar =>
    w.signed y = w.signed x / 2 ^ count ∧
      out = decide (w.signed x / 2 ^ (count - 1) % 2 = 1)

theorem leaves_iterate (op : ShiftOp) (w : Width) {x : UInt16} (fits : x.toNat < 2 ^ w.bits)
    (carry : Bool) (k : Nat) :
    op.Leaves w x carry (k + 1) (w.narrow (op.step^[k + 1] (w.operand x, carry)).1)
      (op.step^[k + 1] (w.operand x, carry)).2 := by
  have long := w.bits_pos
  have bit (i : Nat) : (w.operand x).getLsbD i = x.toNat.testBit i := by
    rw [BitVec.getLsbD, w.toNat_operand_of_lt fits]
  cases op with
  | rol =>
    rw [Leaves, w.operand_narrow, carry_rol _ _ _ long, iterate_rol,
      BitVec.rotateLeft_mod_eq_rotateLeft]
    exact ⟨rfl, rfl⟩
  | ror =>
    rw [Leaves, w.operand_narrow, carry_ror _ _ _ long, iterate_ror,
      BitVec.rotateRight_mod_eq_rotateRight]
    exact ⟨rfl, rfl⟩
  | rcl =>
    rw [Leaves, w.operand_narrow, iterate_rcl _ _ _ long, BitVec.rotateLeft_mod_eq_rotateLeft]
  | rcr =>
    rw [Leaves, w.operand_narrow, iterate_rcr _ _ _ long, BitVec.rotateRight_mod_eq_rotateRight]
  | shl | sal =>
    change (w.narrow (shl.step^[k + 1] (w.operand x, carry)).1).toNat = _ ∧
      (shl.step^[k + 1] (w.operand x, carry)).2 = _
    rw [w.toNat_narrow, carry_shl, iterate_shl, bit, BitVec.toNat_shiftLeft,
      w.toNat_operand_of_lt fits, Nat.shiftLeft_eq]
    exact ⟨rfl, rfl⟩
  | shr =>
    rw [Leaves, w.toNat_narrow, carry_shr, iterate_shr, bit, BitVec.toNat_ushiftRight,
      w.toNat_operand_of_lt fits, Nat.shiftRight_eq_div_pow]
    refine ⟨rfl, ?_⟩
    by_cases within : k + 1 ≤ w.bits
    · simp [within]
    · have beyond : x.toNat.testBit k = false := by
        rw [← bit, BitVec.getLsbD_of_ge _ _ (by omega)]
      simp [beyond]
  | sar =>
    rw [Leaves, w.signed_eq, w.signed_eq, w.operand_narrow, carry_sar _ _ _ long, iterate_sar,
      BitVec.toInt_sshiftRight, Int.shiftRight_eq_div_pow]
    exact ⟨by norm_cast, rfl⟩

end ShiftOp

namespace Flags

/-- Zero, sign and parity are those of the result. -/
def Reports (f : Flags) (w : Width) (y : UInt16) : Prop :=
  f.zero = decide (y = 0) ∧ f.sign = (w.operand y).msb ∧
    f.parity = decide ((List.range 8).countP (y.toNat.testBit ·) % 2 = 0)

theorem withResult_reports (f : Flags) (w : Width) (x : BitVec w.bits) :
    (f.withResult w (w.widen x)).Reports w (w.narrow x) := by
  have zero : (w.widen x == 0) = decide (w.narrow x = 0) := by
    have number := w.toNat_narrow x
    have wide := w.toNat_widen x
    have none : w.widen x = 0 ↔ w.narrow x = 0 := by
      rw [← UInt32.toNat_inj, ← UInt16.toNat_inj, wide, number]
      exact Iff.rfl
    grind
  have sign : (w.widen x &&& w.msb != 0) = (w.operand (w.narrow x)).msb := by
    rw [w.widen_and_msb, setIf_ne_zero _ w.msb_ne_zero, w.operand_narrow]
  refine ⟨?_, sign, ?_⟩
  · rw [← zero, withResult, w.widen_and_mask]
  · change evenParity (w.widen x).toUInt8 = _
    rw [evenParity_eq]
    have low : (w.widen x).toUInt8.toNat = (w.narrow x).toNat % 2 ^ 8 := by
      rw [UInt32.toNat_toUInt8, w.toNat_widen, w.toNat_narrow]
    rw [low]
    congr 3
    apply List.countP_congr
    intro i member
    rw [Nat.testBit_mod_two_pow, decide_eq_true (List.mem_range.1 member), Bool.true_and]

theorem shift_eq (f : Flags) (op : ShiftOp) (w : Width) (x : UInt16) {count : UInt8} {k : Nat}
    (steps : count.toNat = k + 1) :
    f.shift op w x count =
      (w.narrow (op.step^[k + 1] (w.operand x, f.carry)).1,
        { f.afterShift op w (op.step^[k + 1] (w.operand x, f.carry)) with
          overflow :=
            (op.step^[k + 1] (w.operand x, f.carry)).1.msb != (w.operand x).msb }) := by
  have some : count ≠ 0 := by
    intro none
    rw [none] at steps
    exact absurd steps (by simp)
  have signs (a b : Bool) : (setIf a w.msb != setIf b w.msb) = (b != a) := by
    have real := w.msb_ne_zero
    cases a <;> cases b <;> simp [setIf, real, real.symm]
  rw [shift, if_neg some, steps, ← w.widen_operand]
  simp only [shiftBits_widen, w.widen_and_msb, signs]
  rfl

theorem shift_rcr_rcl (f : Flags) (w : Width) {x : UInt16} (fits : x.toNat < 2 ^ w.bits)
    {count : UInt8} (positive : 0 < count.toNat) {y : UInt16} {g : Flags}
    (turned : f.shift .rcl w x count = (y, g)) :
    ∃ h, g.shift .rcr w y count = (x, h) ∧ h.carry = f.carry := by
  obtain ⟨k, steps⟩ := Nat.exists_eq_succ_of_ne_zero (Nat.pos_iff_ne_zero.1 positive)
  have long := w.bits_pos
  rw [f.shift_eq .rcl w x steps] at turned
  obtain ⟨value, flags⟩ := Prod.mk.inj turned
  have carry : g.carry = (ShiftOp.rcl.step^[k + 1] (w.operand x, f.carry)).2 := by
    rw [← flags]
    rfl
  rw [g.shift_eq .rcr w y steps, carry, ← value, w.operand_narrow,
    ShiftOp.iterate_rcr_rcl _ _ _ long, w.narrow_operand fits]
  exact ⟨_, rfl, rfl⟩

/-- The eight operations by any count, with all the flags they leave. -/
theorem shift_closed (f : Flags) (op : ShiftOp) (w : Width) (x : UInt16)
    (fits : x.toNat < 2 ^ w.bits) :
    f.shift op w x 0 = (x, f) ∧
      ∀ count : UInt8, 0 < count.toNat → ∀ y g, f.shift op w x count = (y, g) →
        y.toNat < 2 ^ w.bits ∧
        op.Leaves w x f.carry count.toNat y g.carry ∧
        g.overflow = ((w.operand y).msb != (w.operand x).msb) ∧
        (if op.rotates then g.zero = f.zero ∧ g.sign = f.sign ∧ g.parity = f.parity
          else g.Reports w y) ∧
        g.auxCarry = f.auxCarry ∧ g.trap = f.trap ∧ g.interrupt = f.interrupt ∧
        g.direction = f.direction ∧
        (op = .rcl → ∃ h, g.shift .rcr w y count = (x, h) ∧ h.carry = f.carry) := by
  refine ⟨rfl, ?_⟩
  intro count positive y g result
  have undone : op = .rcl → ∃ h, g.shift .rcr w y count = (x, h) ∧ h.carry = f.carry := by
    rintro rfl
    exact f.shift_rcr_rcl w fits positive result
  obtain ⟨k, steps⟩ := Nat.exists_eq_succ_of_ne_zero (Nat.pos_iff_ne_zero.1 positive)
  rw [f.shift_eq op w x steps] at result
  obtain ⟨rfl, rfl⟩ := result
  rw [steps]
  refine ⟨?_, op.leaves_iterate w fits f.carry k, ?_, ?_, ?_, ?_, ?_, ?_, undone⟩
  · rw [w.toNat_narrow]
    exact BitVec.isLt _
  · rw [w.operand_narrow]
  · cases op with
    | rol | ror | rcl | rcr => exact ⟨rfl, rfl, rfl⟩
    | shl | shr | sal | sar =>
      exact withResult_reports { f with carry := false, overflow := false } w _
  · cases op <;> rfl
  · cases op <;> rfl
  · cases op <;> rfl
  · cases op <;> rfl

/-- Two full turns of the nine bits and two steps more. -/
theorem shift_closed_turns :
    (0x96 : UInt16).toNat < 2 ^ Width.byte.bits ∧
      shift { carry := true } .rcl .byte 0x96 20 = (0x5B, { overflow := true }) ∧
      ShiftOp.rcl.Leaves .byte 0x96 true 20 0x5B false := by
  have fits : (0x96 : UInt16).toNat < 2 ^ Width.byte.bits := by decide
  have turned : shift { carry := true } .rcl .byte 0x96 20 = (0x5B, { overflow := true }) := by
    decide
  have closed := (shift_closed { carry := true } .rcl .byte 0x96 fits).2 20 (by decide) _ _ turned
  exact ⟨fits, turned, closed.2.1⟩

end Flags
end RealMode
