import RealMode.Memory

/-!
Memory as a function of its addresses: what a read sees after a write, and that nothing else tells
two memories apart.
-/

namespace RealMode

theorem wrapAddress_wrapAddress (address : UInt32) :
    wrapAddress (wrapAddress address) = wrapAddress address := by
  apply UInt32.toNat_inj.1
  rw [toNat_wrapAddress, Nat.mod_eq_of_lt (wrapAddress_lt address)]

theorem wrapAddress_eq_iff (a b : UInt32) :
    wrapAddress a = wrapAddress b ↔ a.toNat % memorySize = b.toNat % memorySize := by
  rw [← UInt32.toNat_inj, toNat_wrapAddress, toNat_wrapAddress]

namespace Memory

theorem get_congr (m : Memory) {a b : UInt32} (h : wrapAddress a = wrapAddress b) :
    m.get a = m.get b := by
  unfold get
  congr 2

theorem getElem?_data (m : Memory) (address : UInt32) :
    m.bytes.data[(wrapAddress address).toNat]? = some (m.get address) :=
  Array.getElem?_eq_getElem _

theorem get_set (m : Memory) (a b : UInt32) (value : UInt8) :
    (m.set a value).get b = if wrapAddress b = wrapAddress a then value else m.get b := by
  apply Option.some.inj
  rw [← getElem?_data, set, ByteArray.data_set, Array.getElem?_set]
  by_cases h : wrapAddress b = wrapAddress a
  · rw [if_pos (congrArg UInt32.toNat h.symm), if_pos h]
  · have apart : ¬ (wrapAddress a).toNat = (wrapAddress b).toNat :=
      fun same => h (UInt32.toNat_inj.1 same.symm)
    rw [if_neg apart, if_neg h, getElem?_data]

/-- A store shows at its own address only, and not even there in the ROM window. -/
theorem get_store (m : Memory) (a b : UInt32) (value : UInt8) :
    (m.store a value).get b =
      if wrapAddress b = wrapAddress a ∧ ¬ romStart ≤ wrapAddress b then value else m.get b := by
  unfold store
  by_cases h : wrapAddress b = wrapAddress a
  · by_cases hr : romStart ≤ wrapAddress a <;> simp [h, hr, get_set]
  · split <;> simp [h, get_set]

theorem ext_get {m n : Memory} (h : ∀ address, m.get address = n.get address) : m = n := by
  have bytes : m.bytes = n.bytes := by
    apply ByteArray.ext
    apply Array.ext (m.size_bytes.trans n.size_bytes.symm)
    intro i hm hn
    have bound : i < memorySize := Nat.lt_of_lt_of_eq hm m.size_bytes
    have wrapped : (wrapAddress i.toUInt32).toNat = i := by
      have small : i < UInt32.size := Nat.lt_trans bound (by decide)
      rw [toNat_wrapAddress, Nat.toUInt32_eq, UInt32.toNat_ofNat_of_lt' small,
        Nat.mod_eq_of_lt bound]
    have hi := congrArg some (h i.toUInt32)
    rw [← getElem?_data, ← getElem?_data, wrapped, Array.getElem?_eq_getElem hm,
      Array.getElem?_eq_getElem hn] at hi
    exact Option.some.inj hi
  obtain ⟨a, ha⟩ := m
  obtain ⟨b, hb⟩ := n
  cases bytes
  rfl

end Memory
end RealMode
