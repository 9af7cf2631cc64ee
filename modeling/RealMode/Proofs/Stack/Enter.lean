import RealMode.Proofs.Stack.Words

/-!
What ENTER leaves on the stack: BP, the frame pointers of the enclosing levels as it finds them from
BP down, and the pointer of its own frame. The words that it copies are those of before as long as
they lie clear of the new frame.
-/

namespace RealMode

open MemoryBus (memory)

namespace Memory

/-- The words below BP, each read when those before it have been pushed. -/
def displayWords (m : Memory) (ss sp bp : UInt16) : Nat → List UInt16
  | 0 => []
  | n + 1 =>
    let outer := m.readWord (physical ss (bp - 2))
    outer :: displayWords (m.writeWord (physical ss (sp - 2)) outer) ss (sp - 2) (bp - 2) n

/-- All the words that a frame of this level begins with. -/
def frameWords (m : Memory) (r : Registers) : Nat → List UInt16
  | 0 => [r.bp]
  | n + 1 =>
    r.bp :: ((m.pushWords r.ss r.sp [r.bp]).displayWords r.ss (r.sp - 2) r.bp n ++ [r.sp - 2])

variable (m : Memory) {ss sp bp : UInt16}

@[simp] theorem length_displayWords (n : Nat) : (m.displayWords ss sp bp n).length = n := by
  induction n generalizing m sp bp with
  | zero => rfl
  | succ n ih => rw [displayWords, List.length_cons, ih]

@[simp] theorem length_frameWords (r : Registers) (level : Nat) :
    (m.frameWords r level).length = level + 1 := by
  cases level with
  | zero => rfl
  | succ n =>
      rw [frameWords, List.length_cons, List.length_append, length_displayWords]
      rfl

/-- A display above the top of the stack is copied as it is. -/
theorem getElem_displayWords {n : Nat} (above : 2 * n ≤ (bp - sp).toNat) {i : Nat}
    (inside : i < (m.displayWords ss sp bp n).length) :
    (m.displayWords ss sp bp n)[i] = m.readWord (physical ss (slot bp (i + 1))) := by
  induction n generalizing m sp bp i with
  | zero => cases inside
  | succ n ih =>
      cases i with
      | zero =>
          rw [slot_succ, slot_zero]
          rfl
      | succ i =>
          have same : bp - 2 - (sp - 2) = bp - sp := by grind
          have rest : i < n := by simpa using inside
          have clear : (slot bp (i + 1 + 1) - sp).toNat + 2 * 1 ≤ 0xFFFE := by
            have bound := (bp - sp).toNat_lt
            rw [toNat_slot_sub (by omega)]
            omega
          let outer := m.readWord (physical ss (bp - 2))
          have kept : (m.pushWords ss sp [outer]).readWord (physical ss (slot bp (i + 1 + 1))) =
              m.readWord (physical ss (slot bp (i + 1 + 1))) := m.readWord_pushWords_above clear
          rw [← kept, ← slot_sub_two]
          exact ih _ (by rw [same]; omega) (by simpa using rest)

/-- The first word of a frame is BP, whatever the level. -/
theorem frameWords_zero (r : Registers) (level : Nat) :
    (m.frameWords r level)[0]? = some r.bp := by
  cases level <;> rfl

/-- The last word is the pointer of the frame itself. -/
theorem frameWords_last (r : Registers) (n : Nat) :
    (m.frameWords r (n + 1))[n + 1]? = some (r.sp - 2) := by
  rw [frameWords, List.getElem?_cons_succ, List.getElem?_append_right (by simp)]
  simp

/-- Those between are the words of the display that BP points to, if it lies between the top of the
stack and its lower end. -/
theorem frameWords_display {r : Registers} {n i : Nat} (above : 2 * n ≤ (r.bp - r.sp).toNat)
    (room : (r.bp - r.sp).toNat + 4 ≤ 0x10000) (inside : i < n) :
    (m.frameWords r (n + 1))[i + 1]? = some (m.readWord (physical r.ss (slot r.bp (i + 1)))) := by
  have lower : (r.bp - (r.sp - 2)).toNat = (r.bp - r.sp).toNat + 2 := by
    have two : (2 : UInt16).toNat = 2 := rfl
    have sum : r.bp - (r.sp - 2) = r.bp - r.sp + 2 := by grind
    rw [sum, UInt16.toNat_add, two]
    omega
  have clear : (slot r.bp (i + 1) - r.sp).toNat + 2 * 1 ≤ 0xFFFE := by
    rw [toNat_slot_sub (by omega)]
    omega
  have member : i < ((m.pushWords r.ss r.sp [r.bp]).displayWords r.ss (r.sp - 2) r.bp n).length := by
    rwa [length_displayWords]
  rw [frameWords, List.getElem?_cons_succ, List.getElem?_append_left member,
    List.getElem?_eq_getElem member, getElem_displayWords _ (by omega),
    m.readWord_pushWords_above clear]

end Memory

namespace Cpu

variable {β : Type} [Bus β] (c : Cpu β)

theorem regs_copyDisplay (n : Nat) :
    (c.copyDisplay n).regs =
      { c.regs with bp := slot c.regs.bp n, sp := slot c.regs.sp n } := by
  induction n generalizing c with
  | zero =>
      rw [slot_zero, slot_zero]
      rfl
  | succ n ih =>
      rw [copyDisplay, ih, ← slot_sub_two, ← slot_sub_two]
      rfl

/-- What ENTER pushes for a frame of this level. -/
def openFrame : Nat → Cpu β
  | 0 => c.push c.regs.bp
  | n + 1 => ((c.push c.regs.bp).copyDisplay n).push (c.regs.sp - 2)

theorem enter_eq (size : UInt16) (level : UInt8) :
    c.enter size level =
      let n := (level &&& 0x1F).toNat
      let d := c.openFrame n
      { d with regs := { d.regs with bp := c.regs.sp - 2, sp := d.regs.sp - size } }.spend
        (enterClocks n) := by
  rw [enter]
  generalize (level &&& 0x1F).toNat = n
  cases n <;> rfl

theorem regs_openFrame (n : Nat) :
    (c.openFrame n).regs =
      { c.regs with bp := slot c.regs.bp (n - 1), sp := slot c.regs.sp (n + 1) } := by
  cases n with
  | zero =>
      rw [slot_succ, slot_zero, slot_zero]
      rfl
  | succ n =>
      have copied := (c.push c.regs.bp).regs_copyDisplay n
      have place : slot (c.regs.sp - 2) n - 2 = slot c.regs.sp (n + 1 + 1) := by
        rw [slot_sub_two, ← slot_succ]
      rw [openFrame, push, copied, ← place]
      rfl

theorem regs_enter (size : UInt16) (level : UInt8) :
    (c.enter size level).regs =
      { c.regs with
        bp := c.regs.sp - 2
        sp := slot c.regs.sp ((level &&& 0x1F).toNat + 1) - size } := by
  rw [enter_eq, spend, regs_openFrame]

variable [MemoryBus β]

theorem memory_copyDisplay (n : Nat) :
    memory (c.copyDisplay n).bus =
      (memory c.bus).pushWords c.regs.ss c.regs.sp
        ((memory c.bus).displayWords c.regs.ss c.regs.sp c.regs.bp n) := by
  induction n generalizing c with
  | zero => rfl
  | succ n ih =>
      rw [copyDisplay, ih, Memory.displayWords, Memory.pushWords]
      dsimp only
      rw [memory_push, MemoryBus.readWord]
      rfl

theorem memory_openFrame (n : Nat) :
    memory (c.openFrame n).bus =
      (memory c.bus).pushWords c.regs.ss c.regs.sp ((memory c.bus).frameWords c.regs n) := by
  cases n with
  | zero => exact c.memory_push c.regs.bp
  | succ n =>
      have first := c.memory_push c.regs.bp
      have copied := (c.push c.regs.bp).memory_copyDisplay n
      rw [openFrame, memory_push, regs_copyDisplay, copied, first]
      -- the words lie in three runs, each starting where the one before it has ended
      have runs := ((memory c.bus).pushWords c.regs.ss c.regs.sp [c.regs.bp]).pushWords_append
        c.regs.ss (c.regs.sp - 2)
        (((memory c.bus).pushWords c.regs.ss c.regs.sp [c.regs.bp]).displayWords c.regs.ss
          (c.regs.sp - 2) c.regs.bp n) [c.regs.sp - 2]
      rw [Memory.length_displayWords] at runs
      exact runs.symm

theorem memory_enter (size : UInt16) (level : UInt8) :
    memory (c.enter size level).bus =
      (memory c.bus).pushWords c.regs.ss c.regs.sp
        ((memory c.bus).frameWords c.regs (level &&& 0x1F).toNat) := by
  rw [enter_eq]
  exact c.memory_openFrame _

end Cpu
end RealMode
