import RealMode.Proofs.Cpu.Footprint

/-!
Words pushed one behind the other. Each lies two bytes below the last, counted in 16 bits, so that
no two of them meet before the stack has gone round its whole segment, wherever it starts. In RAM
each is found again at its place, and no byte changes but theirs.
-/

namespace RealMode

/-- The top of the stack when so many words have been pushed. -/
def slot (sp : UInt16) (k : Nat) : UInt16 :=
  sp - UInt16.ofNat (2 * k)

section

variable (sp : UInt16) (k : Nat)

@[simp] theorem slot_zero : slot sp 0 = sp :=
  UInt16.sub_zero sp

theorem slot_sub_two : slot (sp - 2) k = slot sp (k + 1) := by
  rw [slot, slot, Nat.mul_add, UInt16.ofNat_add]
  grind

theorem slot_succ : slot sp (k + 1) = slot sp k - 2 := by
  rw [slot, slot, Nat.mul_add, UInt16.ofNat_add]
  grind

theorem slot_succ_add_two : slot sp (k + 1) + 2 = slot sp k := by
  rw [slot_succ, UInt16.sub_add_cancel]

theorem toNat_slot : ((slot sp k).toNat : Int) = (sp.toNat - 2 * k) % 0x10000 := by
  have bound := sp.toNat_lt
  rw [slot, UInt16.toNat_sub, UInt16.toNat_ofNat']
  omega

end

theorem toNat_slot_sub {a b : UInt16} {k : Nat} (above : 2 * k ≤ (a - b).toNat) :
    (slot a k - b).toNat = (a - b).toNat - 2 * k := by
  have sum : slot a k - b = slot (a - b) k := by
    rw [slot, slot]
    grind
  have distance := toNat_slot (a - b) k
  have bound := (a - b).toNat_lt
  rw [sum]
  omega

/-- A word is clear of those pushed below it unless they come round to it from above. -/
theorem slot_apart {sp a : UInt16} {k : Nat} (pushed : 0 < k)
    (room : (a - sp).toNat + 2 * k ≤ 0xFFFE) :
    a.toNat + 2 ≤ (slot sp k).toNat ∨ (slot sp k).toNat + 2 ≤ a.toNat := by
  have place := toNat_slot sp k
  have top := sp.toNat_lt
  have bound := a.toNat_lt
  rw [UInt16.toNat_sub] at room
  omega

namespace Memory

/-- The words from the highest to the lowest. -/
def pushWords (m : Memory) (ss sp : UInt16) : List UInt16 → Memory
  | [] => m
  | value :: rest => pushWords (m.writeWord (physical ss (sp - 2)) value) ss (sp - 2) rest

section

variable (m : Memory) (ss sp : UInt16)

theorem pushWords_append (words more : List UInt16) :
    m.pushWords ss sp (words ++ more) =
      (m.pushWords ss sp words).pushWords ss (slot sp words.length) more := by
  induction words generalizing m sp with
  | nil => rw [List.nil_append, List.length_nil, slot_zero, pushWords]
  | cons value rest ih =>
      rw [List.cons_append, pushWords, ih, slot_sub_two]
      rfl

theorem agreeOutside_pushWords (words : List UInt16) :
    AgreeOutside (pushedBytes ss sp words.length) m (m.pushWords ss sp words) := by
  induction words generalizing m sp with
  | nil => exact .refl _ m
  | cons value rest ih =>
      intro byte outside
      have later : wrapAddress byte ∉ pushedBytes ss (sp - 2) rest.length := fun member =>
        outside (List.mem_append_right _ member)
      have first : wrapAddress byte ∉ wordBytes (physical ss (sp - 2)) := fun member =>
        outside (List.mem_append_left _ member)
      rw [pushWords, ih _ _ byte later, get_writeWord_of_not_mem m value first]

end

variable (m : Memory) {ss sp : UInt16}

/-- What lies above the top of the stack keeps its value. -/
theorem readWord_pushWords_above {a : UInt16} {words : List UInt16}
    (room : (a - sp).toNat + 2 * words.length ≤ 0xFFFE) :
    (m.pushWords ss sp words).readWord (physical ss a) = m.readWord (physical ss a) := by
  induction words generalizing m sp with
  | nil => rfl
  | cons value rest ih =>
      rw [List.length_cons] at room
      have apart := slot_apart (k := 1) Nat.one_pos (by omega : (a - sp).toNat + 2 * 1 ≤ 0xFFFE)
      have higher : (a - (sp - 2)).toNat + 2 * rest.length ≤ 0xFFFE := by
        have two : (2 : UInt16).toNat = 2 := rfl
        have sum : a - (sp - 2) = a - sp + 2 := by grind
        rw [sum, UInt16.toNat_add, two]
        omega
      rw [slot_succ, slot_zero] at apart
      rw [pushWords, ih _ higher, readWord_writeWord_off m value apart.symm]

/-- Every word is found where it was pushed, as long as they are not more than fill the segment. -/
theorem readWord_pushWords {words : List UInt16}
    (ram : ∀ byte ∈ pushedBytes ss sp words.length, isRam byte) (room : words.length ≤ 0x8000)
    {k : Nat} (inside : k < words.length) :
    (m.pushWords ss sp words).readWord (physical ss (slot sp (k + 1))) = words[k] := by
  induction words generalizing m sp k with
  | nil => cases inside
  | cons value rest ih =>
      rw [List.length_cons] at room
      have later : ∀ byte ∈ pushedBytes ss (sp - 2) rest.length, isRam byte := fun byte member =>
        ram byte (List.mem_append_right _ member)
      cases k with
      | zero =>
          have top : (sp - 2 - (sp - 2)).toNat + 2 * rest.length ≤ 0xFFFE := by
            rw [UInt16.sub_self]
            change 0 + 2 * rest.length ≤ _
            omega
          rw [slot_succ, slot_zero, pushWords, readWord_pushWords_above _ top]
          exact readWord_writeWord_in m value fun byte member =>
            ram byte (List.mem_append_left _ member)
      | succ k =>
          rw [← slot_sub_two, pushWords]
          exact ih _ later (by omega) (Nat.lt_of_succ_lt_succ inside)

end Memory

open MemoryBus (memory)

namespace Cpu

variable {β : Type} [Bus β] [MemoryBus β]

theorem memory_push (c : Cpu β) (value : UInt16) :
    memory (c.push value).bus = (memory c.bus).pushWords c.regs.ss c.regs.sp [value] :=
  MemoryBus.writeWord c.bus _ value

theorem memory_foldl_push (c : Cpu β) (words : List UInt16) :
    memory (words.foldl push c).bus = (memory c.bus).pushWords c.regs.ss c.regs.sp words := by
  induction words generalizing c with
  | nil => rfl
  | cons value rest ih =>
      rw [List.foldl_cons, ih, memory_push]
      rfl

omit [MemoryBus β] in
theorem regs_foldl_push (c : Cpu β) (words : List UInt16) :
    (words.foldl push c).regs = { c.regs with sp := slot c.regs.sp words.length } := by
  induction words generalizing c with
  | nil => rw [List.length_nil, slot_zero, List.foldl_nil]
  | cons value rest ih =>
      rw [List.foldl_cons, ih, List.length_cons, ← slot_sub_two]
      rfl

end Cpu
end RealMode
