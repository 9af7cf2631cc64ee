import RealMode.Proofs.Memory.Blocks

/-!
Words and blocks against single bytes. What is read or written at once is what goes byte by byte,
also where the address space or the ROM window ends in between; of an address only the 20 bits
count; and an image that has been placed is read back whole.
-/

namespace RealMode

namespace Bytewise

variable {β : Type} (readByte : β → UInt32 → UInt8) (b : β) (address : UInt32)

theorem data_readBlock (count : Nat) : (readBlock readByte b address count).data =
    Array.ofFn fun i : Fin count => readByte b (address + i.val.toUInt32) := by
  induction count with
  | zero => rfl
  | succ count ih =>
      have pushed : readBlock readByte b address (count + 1) =
          (readBlock readByte b address count).push (readByte b (address + count.toUInt32)) :=
        Nat.fold_succ ..
      rw [pushed, ByteArray.data_push, ih, Array.ofFn_succ]
      rfl

end Bytewise

theorem wrapAddress_add_congr {a b : UInt32} (h : wrapAddress a = wrapAddress b) (offset : UInt32) :
    wrapAddress (a + offset) = wrapAddress (b + offset) := by
  rw [← UInt32.toNat_inj, toNat_wrapAddress_here, toNat_wrapAddress_here] at h ⊢
  rw [UInt32.toNat_add, UInt32.toNat_add]
  omega

namespace Memory

/-- Two addresses that no access tells apart. -/
structure SamePlace (m : Memory) (a b : UInt32) : Prop where
  get : m.get a = m.get b
  store : ∀ value, m.store a value = m.store b value
  readWord : m.readWord a = m.readWord b
  writeWord : ∀ value, m.writeWord a value = m.writeWord b value
  readBlock : ∀ count, m.readBlock a count = m.readBlock b count
  loadBlock : ∀ data, m.loadBlock a data = m.loadBlock b data

theorem set_congr (m : Memory) {a b : UInt32} (h : wrapAddress a = wrapAddress b) (value : UInt8) :
    m.set a value = m.set b value := by
  refine ext_get fun address => ?_
  rw [get_set, get_set, h]

theorem store_congr (m : Memory) {a b : UInt32} (h : wrapAddress a = wrapAddress b)
    (value : UInt8) : m.store a value = m.store b value := by
  rw [store, store, h, m.set_congr h]

theorem samePlace_of_wrapAddress_eq (m : Memory) {a b : UInt32}
    (h : wrapAddress a = wrapAddress b) : m.SamePlace a b where
  get := m.get_congr h
  store := m.store_congr h
  readWord := by
    rw [readWord_eq, readWord_eq, m.get_congr h, m.get_congr (wrapAddress_add_congr h 1)]
  writeWord value := by
    simp only [writeWord, Bytewise.writeWord]
    rw [m.store_congr h, store_congr _ (wrapAddress_add_congr h 1)]
  readBlock count := by
    rw [readBlock, readBlock, h]
  loadBlock data := by
    have place : ∀ i : Nat, wrapAddress (a + i.toUInt32) = wrapAddress (b + i.toUInt32) :=
      fun i => wrapAddress_add_congr h i.toUInt32
    unfold loadBlock
    congr
    funext i _ n
    exact n.set_congr (place i) _

theorem readBlock_eq_bytewise (m : Memory) (address : UInt32) {count : Nat}
    (h : count ≤ memorySize) : m.readBlock address count = Bytewise.readBlock get m address count := by
  have size := m.size_readBlock address h
  apply ByteArray.ext
  rw [Bytewise.data_readBlock]
  refine Array.ext (size.trans Array.size_ofFn.symm) fun i inside _ => ?_
  rw [Array.getElem_ofFn]
  exact m.getElem_readBlock address h inside

theorem readBlock_eq_iff {m : Memory} {address : UInt32} {data : ByteArray}
    (small : data.size ≤ memorySize) :
    m.readBlock address data.size = data ↔
      ∀ i (h : i < data.size), m.get (address + i.toUInt32) = data[i] := by
  have size := m.size_readBlock address small
  constructor
  · intro same i within
    have byte := m.getElem_readBlock address small (i := i) (by rwa [size])
    simp only [same] at byte
    exact byte.symm
  · intro bytes
    refine ByteArray.ext_getElem size fun i inside within => ?_
    rw [m.getElem_readBlock address small inside]
    exact bytes i within

theorem readBlock_loadBlock (m : Memory) (address : UInt32) {data : ByteArray}
    (small : data.size ≤ memorySize) :
    (m.loadBlock address data).readBlock address data.size = data :=
  (readBlock_eq_iff small).2 fun _ => m.get_loadBlock address small

/-- A word read back where it has been written: the half that is in the ROM window is what it was. -/
theorem readWord_writeWord (m : Memory) (address : UInt32) (value : UInt16) :
    (m.writeWord address value).readWord address =
      wordOfBytes (if isRam address then lowByte value else m.get address)
        (if isRam (address + 1) then highByte value else m.get (address + 1)) := by
  have apart := wrapAddress_ne_succ address
  rw [readWord_eq, get_writeWord, get_writeWord]
  simp [apart, apart.symm]

/-- Everything that is done at an address, told by the single bytes from there on. -/
structure FollowsBytes (m : Memory) (address : UInt32) : Prop where
  /-- Of the address the 20 bits count that reach memory. -/
  get : m.bytes.data[address.toNat % memorySize]? = some (m.get address)
  /-- A store is lost in the ROM window. -/
  store : ∀ value other, (m.store address value).get other =
    if wrapAddress other = wrapAddress address ∧ isRam other then value else m.get other
  readWord : m.readWord address = Bytewise.readWord Memory.get m address
  writeWord : ∀ value, m.writeWord address value = Bytewise.writeWord Memory.store m address value
  readBlock : ∀ count ≤ memorySize,
    m.readBlock address count = Bytewise.readBlock Memory.get m address count
  aliases : ∀ other, other.toNat % memorySize = address.toNat % memorySize →
    m.SamePlace other address
  /-- A word in RAM is read back as it was written. -/
  written : isRam address → isRam (address + 1) →
    ∀ value, (m.writeWord address value).readWord address = value
  /-- Of any word those bytes are read back that could be written. -/
  writtenHalf : ∀ value, (m.writeWord address value).readWord address =
    wordOfBytes (if isRam address then lowByte value else m.get address)
      (if isRam (address + 1) then highByte value else m.get (address + 1))
  loaded : ∀ data : ByteArray, data.size ≤ memorySize →
    (m.loadBlock address data).readBlock address data.size = data
  /-- Placing an image changes no byte but its own. -/
  kept : ∀ (data : ByteArray) (other : UInt32),
    (∀ i < data.size, wrapAddress other ≠ wrapAddress (address + i.toUInt32)) →
      (m.loadBlock address data).get other = m.get other

/-- At every address of every memory. -/
theorem follows_bytes (m : Memory) (address : UInt32) : m.FollowsBytes address where
  get := by
    rw [← toNat_wrapAddress]
    exact m.getElem?_data address
  store value other := m.get_store address other value
  readWord := m.readWord_eq address
  writeWord _ := rfl
  readBlock _ := m.readBlock_eq_bytewise address
  aliases other same := m.samePlace_of_wrapAddress_eq ((wrapAddress_eq_iff other address).2 same)
  written low high value := m.readWord_writeWord_self value low high
  writtenHalf := m.readWord_writeWord address
  loaded _ := m.readBlock_loadBlock address
  kept _ _ := m.get_loadBlock_of_apart address

end Memory
end RealMode
