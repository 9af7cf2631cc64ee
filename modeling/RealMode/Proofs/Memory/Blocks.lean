import RealMode.Proofs.Memory.Words

/-!
Blocks byte by byte: the bytes of a block stand in memory one behind the other, and the last
address is followed by address zero.
-/

namespace RealMode
namespace Memory

theorem toNat_wrapAddress_add (address : UInt32) (i : Nat) :
    (wrapAddress (address + i.toUInt32)).toNat = (address.toNat + i) % 0x100000 := by
  rw [toNat_wrapAddress_here, UInt32.toNat_add, Nat.toUInt32_eq, UInt32.toNat_ofNat']
  omega

theorem size_readBlock (m : Memory) (address : UInt32) {count : Nat} (h : count ≤ memorySize) :
    (m.readBlock address count).size = count := by
  have here := wrapAddress_lt address
  have size := m.size_bytes
  rw [readBlock]
  split
  · rw [ByteArray.size_extract]
    omega
  · rw [ByteArray.size_append, ByteArray.size_extract, ByteArray.size_extract]
    omega

theorem getElem_readBlock (m : Memory) (address : UInt32) {count i : Nat} (h : count ≤ memorySize)
    (inside : i < (m.readBlock address count).size) :
    (m.readBlock address count)[i] = m.get (address + i.toUInt32) := by
  have bound : i < count := by rwa [m.size_readBlock address h] at inside
  have here := wrapAddress_lt address
  have size := m.size_bytes
  have numeral : memorySize = 0x100000 := rfl
  have first := toNat_wrapAddress_here address
  have place := toNat_wrapAddress_add address i
  have total : i < memorySize := Nat.lt_of_lt_of_le bound h
  unfold readBlock at inside ⊢
  dsimp only at inside ⊢
  split
  next fits =>
    rw [ByteArray.getElem_extract]
    exact (m.get_eq_getElem (by omega) _).symm
  next wraps =>
    have front : (m.bytes.extract (wrapAddress address).toNat memorySize).size =
        memorySize - (wrapAddress address).toNat := by
      rw [ByteArray.size_extract]
      omega
    by_cases early : i < memorySize - (wrapAddress address).toNat
    · rw [ByteArray.getElem_append_left (by omega), ByteArray.getElem_extract]
      exact (m.get_eq_getElem (by omega) _).symm
    · rw [ByteArray.getElem_append_right (by omega), ByteArray.getElem_extract]
      exact (m.get_eq_getElem (by omega) _).symm

/-- What holds before the first byte of an image and is kept by placing each byte holds at the end,
with the number of bytes placed so far at hand. -/
theorem loadBlock_keeps {P : Nat → Memory → Prop} {m : Memory} {address : UInt32}
    {data : ByteArray} (start : P 0 m)
    (step : ∀ i (h : i < data.size) (n : Memory), P i n →
      P (i + 1) (n.set (address + i.toUInt32) data[i])) :
    P data.size (m.loadBlock address data) := by
  have placed : ∀ count (h : count ≤ data.size), P count (count.fold
      (fun i below n => n.set (address + i.toUInt32) (data.get i (Nat.lt_of_lt_of_le below h))) m) := by
    intro count
    induction count with
    | zero => exact fun _ => start
    | succ count ih =>
        intro h
        rw [Nat.fold_succ]
        exact step count h _ (ih (Nat.le_of_succ_le h))
  exact placed data.size (Nat.le_refl _)

/-- A byte of an image stands in its place, if the image does not run into itself. -/
theorem get_loadBlock (m : Memory) (address : UInt32) {data : ByteArray}
    (small : data.size ≤ memorySize) {i : Nat} (inside : i < data.size) :
    (m.loadBlock address data).get (address + i.toUInt32) = data[i] := by
  have distinct : ∀ {i j : Nat}, i < j → j < data.size →
      wrapAddress (address + i.toUInt32) ≠ wrapAddress (address + j.toUInt32) := by
    intro i j before bound same
    have size : memorySize = 0x100000 := rfl
    have numbers := congrArg UInt32.toNat same
    rw [toNat_wrapAddress_add, toNat_wrapAddress_add] at numbers
    omega
  have placed : ∀ i (h : i < data.size), i < data.size →
      (m.loadBlock address data).get (address + i.toUInt32) = data[i] := by
    refine loadBlock_keeps (P := fun count n => ∀ i (h : i < data.size), i < count →
      n.get (address + i.toUInt32) = data[i]) (fun i _ before => absurd before i.not_lt_zero) ?_
    intro count bound n earlier i h before
    rw [get_set]
    rcases Nat.lt_succ_iff_lt_or_eq.1 before with before | rfl
    · rw [if_neg (distinct before bound)]
      exact earlier i h before
    · rw [if_pos rfl]
  exact placed i inside inside

/-- Nothing changes where no byte of the image goes. -/
theorem get_loadBlock_of_apart (m : Memory) (address : UInt32) {data : ByteArray} {other : UInt32}
    (apart : ∀ i < data.size, wrapAddress other ≠ wrapAddress (address + i.toUInt32)) :
    (m.loadBlock address data).get other = m.get other := by
  refine loadBlock_keeps (P := fun _ n => n.get other = m.get other) rfl ?_
  intro i bound n before
  rw [get_set, if_neg (apart i bound)]
  exact before

theorem loadBlock_byte (m : Memory) (address : UInt32) (value : UInt8) :
    m.loadBlock address ⟨#[value]⟩ = m.set address value := by
  change m.set (address + 0) value = _
  rw [UInt32.add_zero]

end Memory
end RealMode
