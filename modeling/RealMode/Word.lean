/-!
Words and the two bytes they are made of, and the bit fields of a byte. A word is its low byte and
its high byte and nothing else.
-/

namespace RealMode

def lowTwo (n : Nat) : Fin 4 := ⟨n % 4, Nat.mod_lt n (by decide)⟩

def lowThree (n : Nat) : Fin 8 := ⟨n % 8, Nat.mod_lt n (by decide)⟩

def wordOfBytes (low high : UInt8) : UInt16 :=
  low.toUInt16 ||| high.toUInt16 <<< 8

def lowByte (x : UInt16) : UInt8 :=
  x.toUInt8

def highByte (x : UInt16) : UInt8 :=
  (x >>> 8).toUInt8

/-- A byte taken as a two's complement number and widened to a word. -/
def signExtend (x : UInt8) : UInt16 :=
  x.toInt8.toInt16.toUInt16

theorem forall_byte {P : UInt8 → Prop} (h : ∀ n < 256, P (.ofNat n)) (x : UInt8) : P x := by
  have found := h x.toNat x.toNat_lt
  rwa [UInt8.ofNat_toNat] at found

theorem toNat_wordOfBytes (low high : UInt8) :
    (wordOfBytes low high).toNat = low.toNat + 256 * high.toNat := by
  have hl := low.toNat_lt
  have hh := high.toNat_lt
  have shifted : high.toNat <<< 8 % 2 ^ 16 = 2 ^ 8 * high.toNat := by
    rw [Nat.shiftLeft_eq, Nat.mod_eq_of_lt (by omega), Nat.mul_comm]
  rw [wordOfBytes, UInt16.toNat_or, UInt16.toNat_shiftLeft, UInt8.toNat_toUInt16,
    UInt8.toNat_toUInt16, Nat.or_comm]
  have joined := Nat.two_pow_add_eq_or_of_lt hl high.toNat
  simp only [UInt16.reduceToNat, Nat.reduceMod, shifted]
  omega

theorem toNat_lowByte (x : UInt16) : (lowByte x).toNat = x.toNat % 256 := by
  simp [lowByte]

theorem toNat_highByte (x : UInt16) : (highByte x).toNat = x.toNat / 256 := by
  have := x.toNat_lt
  simp [highByte, Nat.shiftRight_eq_div_pow]
  omega

@[simp] theorem lowByte_wordOfBytes (low high : UInt8) : lowByte (wordOfBytes low high) = low := by
  apply UInt8.toNat_inj.1
  have := low.toNat_lt
  rw [toNat_lowByte, toNat_wordOfBytes]
  omega

@[simp] theorem highByte_wordOfBytes (low high : UInt8) : highByte (wordOfBytes low high) = high := by
  apply UInt8.toNat_inj.1
  have := low.toNat_lt
  rw [toNat_highByte, toNat_wordOfBytes]
  omega

@[simp] theorem wordOfBytes_bytes (x : UInt16) : wordOfBytes (lowByte x) (highByte x) = x := by
  apply UInt16.toNat_inj.1
  rw [toNat_wordOfBytes, toNat_lowByte, toNat_highByte]
  omega

end RealMode
