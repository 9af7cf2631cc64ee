import RealMode.Word

/-!
One mebibyte of memory. Addresses have 20 bits: of a wider number the upper bits do not count. The
last 64 KiB are a ROM window, which `store` leaves as it is and `set` and `loadBlock` change.

Words and blocks are read from the underlying bytes at once. `Bytewise` says the same with single
bytes, and is what a bus without a faster way uses.
-/

namespace RealMode

def memorySize : Nat := 0x100000

def romStart : UInt32 := 0xF0000

def bootVector : UInt32 := 0xFFFF0

/-- The 20 bits of an address that reach memory. -/
def wrapAddress (address : UInt32) : UInt32 :=
  address &&& 0xFFFFF

theorem toNat_wrapAddress (address : UInt32) :
    (wrapAddress address).toNat = address.toNat % memorySize := by
  rw [wrapAddress, UInt32.toNat_and]
  exact Nat.and_two_pow_sub_one_eq_mod address.toNat 20

theorem wrapAddress_lt (address : UInt32) : (wrapAddress address).toNat < memorySize := by
  rw [toNat_wrapAddress]
  exact Nat.mod_lt _ (by decide)

namespace Bytewise

variable {β : Type}

/-- The low byte of a word is at the lower address. -/
def readWord (readByte : β → UInt32 → UInt8) (b : β) (address : UInt32) : UInt16 :=
  wordOfBytes (readByte b address) (readByte b (address + 1))

def writeWord (writeByte : β → UInt32 → UInt8 → β) (b : β) (address : UInt32) (value : UInt16) : β :=
  writeByte (writeByte b address (lowByte value)) (address + 1) (highByte value)

def readBlock (readByte : β → UInt32 → UInt8) (b : β) (address : UInt32) (count : Nat) : ByteArray :=
  count.fold (fun i _ block => block.push (readByte b (address + i.toUInt32))) ByteArray.empty

end Bytewise

structure Memory where
  bytes : ByteArray
  size_bytes : bytes.size = memorySize

namespace Memory

def zero : Memory where
  bytes := ⟨Array.replicate memorySize 0⟩
  size_bytes := Array.size_replicate

def get (m : Memory) (address : UInt32) : UInt8 :=
  m.bytes.get (wrapAddress address).toNat (by rw [m.size_bytes]; exact wrapAddress_lt address)

/-- Writes anywhere, the ROM window included. -/
def set (m : Memory) (address : UInt32) (value : UInt8) : Memory where
  bytes := m.bytes.set (wrapAddress address).toNat value
    (by rw [m.size_bytes]; exact wrapAddress_lt address)
  size_bytes := by
    rw [ByteArray.size, ByteArray.data_set, Array.size_set]
    exact m.size_bytes

/-- A write by a running program: nothing happens in the ROM window. -/
def store (m : Memory) (address : UInt32) (value : UInt8) : Memory :=
  if romStart ≤ wrapAddress address then m else m.set address value

/-- The word at the last address has its high byte at address zero. -/
def readWord (m : Memory) (address : UInt32) : UInt16 :=
  let i := (wrapAddress address).toNat
  if h : i + 1 < memorySize then
    wordOfBytes (m.bytes.get i (by rw [m.size_bytes]; omega))
      (m.bytes.get (i + 1) (by rw [m.size_bytes]; exact h))
  else wordOfBytes (m.get address) (m.get 0)

def writeWord (m : Memory) (address : UInt32) (value : UInt16) : Memory :=
  Bytewise.writeWord store m address value

/-- A block that runs past the last address goes on at address zero. -/
def readBlock (m : Memory) (address : UInt32) (count : Nat) : ByteArray :=
  let start := (wrapAddress address).toNat
  let stop := start + count
  if stop ≤ memorySize then m.bytes.extract start stop
  else m.bytes.extract start memorySize ++ m.bytes.extract 0 (stop - memorySize)

/-- Placing an image ignores the write protection of the ROM window. -/
def loadBlock (m : Memory) (address : UInt32) (data : ByteArray) : Memory :=
  data.size.fold (fun i h m => m.set (address + i.toUInt32) (data.get i h)) m

end Memory
end RealMode
