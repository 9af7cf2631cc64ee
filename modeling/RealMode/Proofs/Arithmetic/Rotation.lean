/-!
Rotations and shifts of bit vectors by one place at a time. A rotation takes every bit to a place
that is counted modulo the length, so that rotations add up and undo each other.
-/

namespace BitVec

variable {w : Nat}

theorem getLsbD_rotateRight_mod (x : BitVec w) (n : Nat) {i : Nat} (inside : i < w) :
    (x.rotateRight n).getLsbD i = x.getLsbD ((i + n) % w) := by
  have turn : n % w < w := Nat.mod_lt n (by omega)
  have place : (i + n) % w = (i + n % w) % w := by simp
  rw [getLsbD_rotateRight, place, Bool.cond_eq_ite]
  by_cases low : i < w - n % w
  · have stays : (i + n % w) % w = n % w + i := by
      rw [Nat.mod_eq_of_lt (by omega), Nat.add_comm]
    simp [low, stays]
  · have wraps : (i + n % w) % w = i - (w - n % w) := by
      rw [Nat.mod_eq_sub_mod (by omega), Nat.mod_eq_of_lt (by omega)]
      omega
    simp [low, wraps, inside]

theorem getLsbD_rotateLeft_mod (x : BitVec w) (n : Nat) {i : Nat} (inside : i < w) :
    (x.rotateLeft n).getLsbD ((i + n) % w) = x.getLsbD i := by
  have turn : n % w < w := Nat.mod_lt n (by omega)
  have place : (i + n) % w = (i + n % w) % w := by simp
  rw [getLsbD_rotateLeft, place, Bool.cond_eq_ite]
  by_cases low : i + n % w < w
  · have stays : (i + n % w) % w = i + n % w := Nat.mod_eq_of_lt low
    have above : ¬ i + n % w < n % w := by omega
    simp [stays, above, low]
  · have wraps : (i + n % w) % w = i - (w - n % w) := by
      rw [Nat.mod_eq_sub_mod (by omega), Nat.mod_eq_of_lt (by omega)]
      omega
    have below : i - (w - n % w) < n % w := by omega
    have back : w - n % w + (i - (w - n % w)) = i := by omega
    simp [wraps, below, back]

/-- Every place is where a rotation takes some bit. -/
theorem exists_rotated (n : Nat) {j : Nat} (inside : j < w) : ∃ i < w, (i + n) % w = j := by
  have turn : n % w < w := Nat.mod_lt n (by omega)
  have whole := Nat.mod_add_div n w
  refine ⟨(j + (w - n % w)) % w, Nat.mod_lt _ (by omega), ?_⟩
  calc ((j + (w - n % w)) % w + n) % w
      = (j + w * (n / w + 1)) % w := by
        rw [Nat.mod_add_mod, Nat.mul_add, Nat.mul_one]
        congr 1
        omega
    _ = j := by rw [Nat.add_mul_mod_self_left, Nat.mod_eq_of_lt inside]

theorem rotateLeft_zero (x : BitVec w) : x.rotateLeft 0 = x := by
  apply eq_of_getLsbD_eq
  intro i inside
  have moved := x.getLsbD_rotateLeft_mod 0 inside
  rwa [Nat.add_zero, Nat.mod_eq_of_lt inside] at moved

theorem rotateRight_zero (x : BitVec w) : x.rotateRight 0 = x := by
  apply eq_of_getLsbD_eq
  intro i inside
  rw [getLsbD_rotateRight_mod _ _ inside, Nat.add_zero, Nat.mod_eq_of_lt inside]

theorem rotateRight_add (x : BitVec w) (m n : Nat) :
    x.rotateRight (m + n) = (x.rotateRight m).rotateRight n := by
  apply eq_of_getLsbD_eq
  intro i inside
  have place : (i + n) % w < w := Nat.mod_lt _ (by omega)
  rw [getLsbD_rotateRight_mod _ _ inside, getLsbD_rotateRight_mod _ _ inside,
    getLsbD_rotateRight_mod _ _ place, Nat.mod_add_mod]
  congr 2
  omega

theorem rotateLeft_add (x : BitVec w) (m n : Nat) :
    x.rotateLeft (m + n) = (x.rotateLeft m).rotateLeft n := by
  apply eq_of_getLsbD_eq
  intro j inside
  obtain ⟨i, low, rfl⟩ := exists_rotated (m + n) inside
  have place : (i + m) % w < w := Nat.mod_lt _ (by omega)
  have route : (i + (m + n)) % w = ((i + m) % w + n) % w := by
    rw [Nat.mod_add_mod, Nat.add_assoc]
  rw [getLsbD_rotateLeft_mod _ _ low, route, getLsbD_rotateLeft_mod _ _ place,
    getLsbD_rotateLeft_mod _ _ low]

theorem rotateRight_rotateLeft (x : BitVec w) (n : Nat) :
    (x.rotateLeft n).rotateRight n = x := by
  apply eq_of_getLsbD_eq
  intro i inside
  rw [getLsbD_rotateRight_mod _ _ inside, getLsbD_rotateLeft_mod _ _ inside]

/-- The mirror image of `shiftConcat`: all bits move down and the new one comes in at the top. -/
def shiftCons (b : Bool) (x : BitVec w) : BitVec w :=
  (cons b x >>> 1).setWidth w

theorem getLsbD_shiftCons (b : Bool) (x : BitVec w) (i : Nat) :
    (x.shiftCons b).getLsbD i =
      (decide (i < w) && if i + 1 = w then b else x.getLsbD (i + 1)) := by
  rw [shiftCons, getLsbD_setWidth, getLsbD_ushiftRight, getLsbD_cons, Nat.add_comm 1 i]

theorem msb_shiftCons (b : Bool) (x : BitVec w) (long : 0 < w) : (x.shiftCons b).msb = b := by
  have last : w - 1 + 1 = w := by omega
  have inside : w - 1 < w := by omega
  rw [msb_eq_getLsbD_last, getLsbD_shiftCons, if_pos last, decide_eq_true inside, Bool.true_and]

theorem shiftConcat_false (x : BitVec w) : x.shiftConcat false = x <<< 1 := by
  apply eq_of_getLsbD_eq
  intro i inside
  rw [getLsbD_shiftConcat, getLsbD_shiftLeft]
  cases i with
  | zero => simp
  | succ i => simp

theorem shiftCons_false (x : BitVec w) : x.shiftCons false = x >>> 1 := by
  apply eq_of_getLsbD_eq
  intro i inside
  rw [getLsbD_shiftCons, getLsbD_ushiftRight, Nat.add_comm 1 i]
  by_cases last : i + 1 = w
  · simp [last, inside]
  · simp [last, inside]

theorem shiftCons_msb (x : BitVec w) : x.shiftCons x.msb = x.sshiftRight 1 := by
  apply eq_of_getLsbD_eq
  intro i inside
  rw [getLsbD_shiftCons, getLsbD_sshiftRight, Nat.add_comm 1 i]
  by_cases last : i + 1 = w
  · simp [last, inside]
  · have below : i + 1 < w := by omega
    simp [last, inside, below]

theorem shiftConcat_msb (x : BitVec w) : x.shiftConcat x.msb = x.rotateLeft 1 := by
  apply eq_of_getLsbD_eq
  intro j inside
  obtain ⟨i, low, rfl⟩ := exists_rotated 1 inside
  rw [getLsbD_rotateLeft_mod _ _ low, getLsbD_shiftConcat, msb_eq_getLsbD_last]
  by_cases last : i + 1 = w
  · have bottom : (i + 1) % w = 0 := by rw [last, Nat.mod_self]
    have top : w - 1 = i := by omega
    have long : 0 < w := by omega
    simp [bottom, top, long]
  · have next : (i + 1) % w = i + 1 := Nat.mod_eq_of_lt (by omega)
    have below : i + 1 < w := by omega
    simp [next, below]

theorem shiftCons_getLsbD_zero (x : BitVec w) : x.shiftCons (x.getLsbD 0) = x.rotateRight 1 := by
  apply eq_of_getLsbD_eq
  intro i inside
  rw [getLsbD_rotateRight_mod _ _ inside, getLsbD_shiftCons]
  by_cases last : i + 1 = w
  · have bottom : (i + 1) % w = 0 := by rw [last, Nat.mod_self]
    rw [bottom]
    simp [last, inside]
  · have next : (i + 1) % w = i + 1 := Nat.mod_eq_of_lt (by omega)
    simp [next, last, inside]

/-- A step through a further bit above the vector is a rotation of both together. -/
theorem cons_shiftConcat (x : BitVec w) (b : Bool) (long : 0 < w) :
    cons x.msb (x.shiftConcat b) = (cons b x).rotateLeft 1 := by
  rw [← shiftConcat_msb, msb_cons]
  apply eq_of_getLsbD_eq
  intro i inside
  rw [getLsbD_cons, getLsbD_shiftConcat, getLsbD_shiftConcat, getLsbD_cons]
  by_cases top : i = w
  · have above : ¬ w = 0 := by omega
    have under : ¬ w - 1 = w := by omega
    rw [msb_eq_getLsbD_last]
    simp [top, above, under]
  · have below : i < w := by omega
    have under : ¬ i - 1 = w := by omega
    simp [top, inside, below, under]

theorem cons_shiftCons (x : BitVec w) (b : Bool) (long : 0 < w) :
    cons (x.getLsbD 0) (x.shiftCons b) = (cons b x).rotateRight 1 := by
  rw [← shiftCons_getLsbD_zero]
  apply eq_of_getLsbD_eq
  intro i inside
  have bottom : ¬ 0 = w := by omega
  rw [getLsbD_cons, getLsbD_shiftCons, getLsbD_shiftCons, getLsbD_cons b x 0,
    getLsbD_cons b x (i + 1)]
  by_cases top : i = w
  · simp [top, bottom]
  · have below : i < w := by omega
    simp [top, inside, below]

/-- The lowest bit is that of the two's complement number, whatever its sign. -/
theorem getLsbD_zero_eq_odd (x : BitVec w) (long : 0 < w) :
    x.getLsbD 0 = decide (x.toInt % 2 = 1) := by
  have even : 2 ^ w = 2 * 2 ^ (w - 1) := by
    rw [← Nat.pow_succ']
    congr 1
    omega
  rw [getLsbD, Nat.testBit_zero, toInt_eq_toNat_cond, decide_eq_decide]
  split
  · omega
  · omega

end BitVec
