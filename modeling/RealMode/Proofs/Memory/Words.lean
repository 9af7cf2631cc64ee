import Mathlib.Data.Bool.AllAny
import RealMode.Memory.Lemmas
import RealMode.Registers

/-!
Words in memory as pairs of bytes. A word has its bytes at neighbouring physical addresses, also
at the end of a segment or of the address space, so that two words do not meet unless their
offsets are closer than two.
-/

namespace RealMode

/-- An address outside of the ROM window. -/
def isRam (address : UInt32) : Prop :=
  ¬ romStart ≤ wrapAddress address

instance (address : UInt32) : Decidable (isRam address) :=
  inferInstanceAs (Decidable (¬ _))

/-- The places of the two bytes of a word. -/
def wordBytes (address : UInt32) : List UInt32 :=
  [wrapAddress address, wrapAddress (address + 1)]

theorem mem_wordBytes {address byte : UInt32} :
    byte ∈ wordBytes address ↔ byte = wrapAddress address ∨ byte = wrapAddress (address + 1) := by
  simp [wordBytes]

theorem toNat_wrapAddress_here (address : UInt32) :
    (wrapAddress address).toNat = address.toNat % 0x100000 :=
  toNat_wrapAddress address

theorem toNat_wrapAddress_next (address : UInt32) :
    (wrapAddress (address + 1)).toNat = (address.toNat + 1) % 0x100000 := by
  have one : (1 : UInt32).toNat = 1 := rfl
  rw [toNat_wrapAddress_here, UInt32.toNat_add, one]
  omega

theorem wrapAddress_ne_succ (address : UInt32) :
    wrapAddress address ≠ wrapAddress (address + 1) := by
  intro same
  have numbers := congrArg UInt32.toNat same
  rw [toNat_wrapAddress_here, toNat_wrapAddress_next] at numbers
  omega

theorem toNat_physical (segment offset : UInt16) :
    (physical segment offset).toNat = (segment.toNat * 16 + offset.toNat) % 0x100000 := by
  have hs := segment.toNat_lt
  have ho := offset.toNat_lt
  have four : (4 : UInt32).toNat % 32 = 4 := rfl
  have masked := toNat_wrapAddress_here (segment.toUInt32 <<< 4 + offset.toUInt32)
  rw [physical, ← wrapAddress, masked, UInt32.toNat_add, UInt32.toNat_shiftLeft,
    UInt16.toNat_toUInt32, UInt16.toNat_toUInt32, Nat.shiftLeft_eq, four]
  omega

theorem wrapAddress_physical (segment offset : UInt16) :
    wrapAddress (physical segment offset) = physical segment offset := by
  rw [physical]
  exact wrapAddress_wrapAddress _

theorem wordBytes_physical (segment : UInt16) {offset : UInt16} (inside : offset ≠ 0xFFFF) :
    wordBytes (physical segment offset) =
      [physical segment offset, physical segment (offset + 1)] := by
  have next : wrapAddress (physical segment offset + 1) = physical segment (offset + 1) := by
    have one : (1 : UInt16).toNat = 1 := rfl
    have last : offset.toNat ≠ 0xFFFF := fun same => inside (UInt16.toNat_inj.1 same)
    have bound := offset.toNat_lt
    refine UInt32.toNat_inj.1 ?_
    rw [toNat_wrapAddress_next, toNat_physical, toNat_physical, UInt16.toNat_add, one]
    omega
  rw [wordBytes, wrapAddress_physical, next]

/-- Offsets that differ by two or more, counted without wrapping, give words that do not meet. -/
theorem wordBytes_apart (segment : UInt16) {a b : UInt16}
    (h : a.toNat + 2 ≤ b.toNat ∨ b.toNat + 2 ≤ a.toNat) {byte : UInt32}
    (first : byte ∈ wordBytes (physical segment a)) :
    byte ∉ wordBytes (physical segment b) := by
  have place : ∀ (offset : UInt16) (byte : UInt32), byte ∈ wordBytes (physical segment offset) →
      byte.toNat = (segment.toNat * 16 + offset.toNat) % 0x100000 ∨
        byte.toNat = (segment.toNat * 16 + offset.toNat + 1) % 0x100000 := by
    intro offset byte member
    rcases mem_wordBytes.1 member with rfl | rfl
    · exact Or.inl (by rw [wrapAddress_physical, toNat_physical])
    · refine Or.inr ?_
      rw [toNat_wrapAddress_next, toNat_physical]
      omega
  intro second
  have ha := a.toNat_lt
  have hb := b.toNat_lt
  rcases place a byte first with p | p <;> rcases place b byte second with q | q <;> omega

namespace Memory

theorem get_eq_getElem (m : Memory) {address : UInt32} {i : Nat}
    (place : (wrapAddress address).toNat = i) (h : i < m.bytes.size) :
    m.get address = m.bytes[i] := by
  subst place
  rfl

theorem readWord_eq (m : Memory) (address : UInt32) :
    m.readWord address = wordOfBytes (m.get address) (m.get (address + 1)) := by
  have here := toNat_wrapAddress_here address
  have next := toNat_wrapAddress_next address
  have size : memorySize = 0x100000 := rfl
  by_cases inside : (wrapAddress address).toNat + 1 < memorySize
  · have succ : (wrapAddress (address + 1)).toNat = (wrapAddress address).toNat + 1 := by omega
    rw [m.get_eq_getElem succ (by rw [m.size_bytes]; exact inside)]
    exact dif_pos inside
  · have zero : (wrapAddress 0).toNat = 0 := rfl
    have wrapped : wrapAddress (address + 1) = wrapAddress 0 := by
      rw [← UInt32.toNat_inj]
      omega
    rw [m.get_congr wrapped]
    exact dif_neg inside

theorem get_writeWord (m : Memory) (a b : UInt32) (value : UInt16) :
    (m.writeWord a value).get b =
      if wrapAddress b = wrapAddress (a + 1) ∧ isRam b then highByte value
      else if wrapAddress b = wrapAddress a ∧ isRam b then lowByte value
      else m.get b := by
  rw [writeWord, Bytewise.writeWord, get_store, get_store]
  rfl

theorem readWord_writeWord_self (m : Memory) {address : UInt32} (value : UInt16)
    (low : isRam address) (high : isRam (address + 1)) :
    (m.writeWord address value).readWord address = value := by
  rw [readWord_eq, get_writeWord, get_writeWord, if_neg fun h => wrapAddress_ne_succ address h.1,
    if_pos ⟨rfl, low⟩, if_pos ⟨rfl, high⟩, wordOfBytes_bytes]

theorem get_writeWord_of_not_mem (m : Memory) {a b : UInt32} (value : UInt16)
    (h : wrapAddress b ∉ wordBytes a) : (m.writeWord a value).get b = m.get b := by
  rw [mem_wordBytes, not_or] at h
  rw [get_writeWord, if_neg fun hit => h.2 hit.1, if_neg fun hit => h.1 hit.1]

theorem readWord_writeWord_of_apart (m : Memory) {a b : UInt32} (value : UInt16)
    (h : ∀ byte ∈ wordBytes b, byte ∉ wordBytes a) :
    (m.writeWord a value).readWord b = m.readWord b := by
  rw [readWord_eq, readWord_eq, get_writeWord_of_not_mem m value (h _ (by simp [wordBytes])),
    get_writeWord_of_not_mem m value (h _ (by simp [wordBytes]))]

/-- The same bytes at all addresses but those listed. -/
def AgreeOutside (places : List UInt32) (m n : Memory) : Prop :=
  ∀ address, wrapAddress address ∉ places → n.get address = m.get address

namespace AgreeOutside

variable {places : List UInt32} {m n : Memory}

theorem refl (places : List UInt32) (m : Memory) : AgreeOutside places m m :=
  fun _ _ => rfl

theorem trans {k : Memory} (h : AgreeOutside places m n) (g : AgreeOutside places n k) :
    AgreeOutside places m k :=
  fun address outside => (g address outside).trans (h address outside)

theorem store (h : AgreeOutside places m n) (address : UInt32) (value : UInt8) :
    AgreeOutside places (m.store address value) (n.store address value) := by
  intro b outside
  rw [get_store, get_store, h b outside]

theorem writeWord (h : AgreeOutside places m n) (address : UInt32) (value : UInt16) :
    AgreeOutside places (m.writeWord address value) (n.writeWord address value) :=
  (h.store address (lowByte value)).store (address + 1) (highByte value)

theorem writeWord_right (h : AgreeOutside places m n) {address : UInt32} (value : UInt16)
    (inside : ∀ byte ∈ wordBytes address, byte ∈ places) :
    AgreeOutside places m (n.writeWord address value) := by
  intro b outside
  rw [get_writeWord_of_not_mem n value fun member => outside (inside _ member), h b outside]

theorem readWord (h : AgreeOutside places m n) {address : UInt32}
    (outside : ∀ byte ∈ wordBytes address, byte ∉ places) :
    n.readWord address = m.readWord address := by
  rw [readWord_eq, readWord_eq, h _ (outside _ (by simp [wordBytes])),
    h _ (outside _ (by simp [wordBytes]))]

end AgreeOutside

theorem readWord_congr {m n : Memory} {address : UInt32}
    (h : ∀ byte ∈ wordBytes address, n.get byte = m.get byte) :
    n.readWord address = m.readWord address := by
  have low := h (wrapAddress address) (by simp [wordBytes])
  have high := h (wrapAddress (address + 1)) (by simp [wordBytes])
  have wrapped (k : Memory) (a : UInt32) : k.get (wrapAddress a) = k.get a :=
    k.get_congr (wrapAddress_wrapAddress a)
  rw [wrapped, wrapped] at low high
  rw [readWord_eq, readWord_eq, low, high]

end Memory
end RealMode
