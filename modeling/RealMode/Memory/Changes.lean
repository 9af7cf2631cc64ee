import RealMode.Memory

/-!
The difference of two memories, as runs of neighbouring bytes that have changed.
-/

namespace RealMode
namespace Memory

/-- Bytes that lie next to each other, from `start` on. -/
structure Run where
  start : Nat
  bytes : ByteArray

/-- Goes down from address `n - 1`. `open?` is the run that starts at `n`, read backwards. -/
def changedBelow (old new : Memory) : Nat → List UInt8 → List Run → List Run
  | 0, tail, runs => close 0 tail runs
  | n + 1, tail, runs =>
    let value := new.bytes.get! n
    if old.bytes.get! n == value then changedBelow old new n [] (close (n + 1) tail runs)
    else changedBelow old new n (value :: tail) runs
where
  close (start : Nat) : List UInt8 → List Run → List Run
    | [], runs => runs
    | tail, runs => ⟨start, ⟨tail.toArray⟩⟩ :: runs

/-- The bytes of `new` that differ from `old`, in ascending order and in runs as long as can be. -/
def changes (old new : Memory) : List Run :=
  changedBelow old new memorySize [] []

end Memory
end RealMode
