import RealMode.Flags.Lemmas
import RealMode.Proofs.Cpu.Cycle
import RealMode.Proofs.Memory.Words

/-!
The three words that an entry pushes, and what a return makes of them. The words never overlap,
wherever the stack is and however it wraps, so that in RAM a return with the stack as the entry left
it finds what was pushed.
-/

namespace RealMode

/-- The places of the words that an interrupt pushes onto a stack: flags, CS and IP. -/
def frameBytes (ss sp : UInt16) : List UInt32 :=
  wordBytes (physical ss (sp - 2)) ++
    (wordBytes (physical ss (sp - 4)) ++ wordBytes (physical ss (sp - 6)))

theorem mem_frameBytes {ss sp : UInt16} {byte : UInt32} :
    byte ∈ frameBytes ss sp ↔ byte ∈ wordBytes (physical ss (sp - 2)) ∨
      byte ∈ wordBytes (physical ss (sp - 4)) ∨ byte ∈ wordBytes (physical ss (sp - 6)) := by
  rw [frameBytes, List.mem_append, List.mem_append]

theorem sub_sub_eq (sp : UInt16) {i j k : UInt16} (sum : j + i = k) : sp - i - j = sp - k := by
  rw [UInt16.sub_eq_iff_eq_add, UInt16.sub_eq_iff_eq_add, UInt16.add_assoc, sum]
  exact (UInt16.sub_add_cancel sp k).symm

theorem sub_two_two (sp : UInt16) : sp - 2 - 2 = sp - 4 :=
  sub_sub_eq sp rfl

theorem sub_four_two (sp : UInt16) : sp - 4 - 2 = sp - 6 :=
  sub_sub_eq sp rfl

/-- These are the six bytes just below the top of the stack, unless one of the words runs over the
end of the segment. -/
theorem frameBytes_eq (ss : UInt16) {sp : UInt16} (one : sp ≠ 1) (three : sp ≠ 3) (five : sp ≠ 5) :
    frameBytes ss sp =
      [physical ss (sp - 2), physical ss (sp - 1), physical ss (sp - 4), physical ss (sp - 3),
        physical ss (sp - 6), physical ss (sp - 5)] := by
  have inside : ∀ i last : UInt16, 0xFFFF + i = last → sp ≠ last → sp - i ≠ 0xFFFF := by
    intro i last sum other same
    exact other ((UInt16.sub_eq_iff_eq_add.1 same).trans sum)
  have next : ∀ i j : UInt16, 1 + i = j → sp - j + 1 = sp - i := by
    intro i j sum
    rw [← sub_sub_eq sp sum, UInt16.sub_add_cancel]
  rw [frameBytes, wordBytes_physical ss (inside 2 1 rfl one),
    wordBytes_physical ss (inside 4 3 rfl three), wordBytes_physical ss (inside 6 5 rfl five),
    next 1 2 rfl, next 3 4 rfl, next 5 6 rfl]
  rfl

theorem isRam_wrapAddress {address : UInt32} : isRam (wrapAddress address) ↔ isRam address := by
  rw [isRam, isRam, wrapAddress_wrapAddress]

theorem sub_add_apart (sp : UInt16) {i j : UInt16} (near : i.toNat + 2 ≤ j.toNat)
    (far : j.toNat ≤ 6) :
    (sp - i).toNat + 2 ≤ (sp - j).toNat ∨ (sp - j).toNat + 2 ≤ (sp - i).toNat := by
  have bound := sp.toNat_lt
  rw [UInt16.toNat_sub, UInt16.toNat_sub]
  omega

namespace Memory

def pushFrame (m : Memory) (r : Registers) : Memory :=
  ((m.writeWord (physical r.ss (r.sp - 2)) r.flags.toWord).writeWord
    (physical r.ss (r.sp - 4)) r.cs).writeWord (physical r.ss (r.sp - 6)) r.ip

structure HoldsFrame (m : Memory) (r : Registers) : Prop where
  ip : m.readWord (physical r.ss (r.sp - 6)) = r.ip
  cs : m.readWord (physical r.ss (r.sp - 4)) = r.cs
  flags : m.readWord (physical r.ss (r.sp - 2)) = r.flags.toWord

theorem readWord_writeWord_in (m : Memory) {segment offset : UInt16} (value : UInt16)
    (ram : ∀ byte ∈ wordBytes (physical segment offset), isRam byte) :
    (m.writeWord (physical segment offset) value).readWord (physical segment offset) = value := by
  have low := ram _ (mem_wordBytes.2 (.inl rfl))
  have high := ram _ (mem_wordBytes.2 (.inr rfl))
  exact m.readWord_writeWord_self value (isRam_wrapAddress.1 low) (isRam_wrapAddress.1 high)

theorem readWord_writeWord_off (m : Memory) {segment a b : UInt16} (value : UInt16)
    (apart : a.toNat + 2 ≤ b.toNat ∨ b.toNat + 2 ≤ a.toNat) :
    (m.writeWord (physical segment a) value).readWord (physical segment b) =
      m.readWord (physical segment b) :=
  m.readWord_writeWord_of_apart value fun _ => wordBytes_apart segment apart.symm

theorem holdsFrame_pushFrame (m : Memory) {r : Registers}
    (ram : ∀ byte ∈ frameBytes r.ss r.sp, isRam byte) : (m.pushFrame r).HoldsFrame r where
  ip := readWord_writeWord_in _ _ fun byte member =>
    ram byte (mem_frameBytes.2 (.inr (.inr member)))
  cs := by
    rw [pushFrame, readWord_writeWord_off _ _ (sub_add_apart r.sp (by decide) (by decide)).symm]
    exact readWord_writeWord_in _ _ fun byte member =>
      ram byte (mem_frameBytes.2 (.inr (.inl member)))
  flags := by
    rw [pushFrame, readWord_writeWord_off _ _ (sub_add_apart r.sp (by decide) (by decide)).symm,
      readWord_writeWord_off _ _ (sub_add_apart r.sp (by decide) (by decide)).symm]
    exact readWord_writeWord_in _ _ fun byte member => ram byte (mem_frameBytes.2 (.inl member))

theorem HoldsFrame.congr {m n : Memory} {r : Registers} (h : m.HoldsFrame r)
    (same : ∀ byte ∈ frameBytes r.ss r.sp, n.get byte = m.get byte) : n.HoldsFrame r where
  ip := by
    rw [← h.ip]
    exact readWord_congr fun byte member => same byte (mem_frameBytes.2 (.inr (.inr member)))
  cs := by
    rw [← h.cs]
    exact readWord_congr fun byte member => same byte (mem_frameBytes.2 (.inr (.inl member)))
  flags := by
    rw [← h.flags]
    exact readWord_congr fun byte member => same byte (mem_frameBytes.2 (.inl member))

theorem agreeOutside_pushFrame (m : Memory) (r : Registers) :
    AgreeOutside (frameBytes r.ss r.sp) m (m.pushFrame r) := by
  refine AgreeOutside.writeWord_right (AgreeOutside.writeWord_right
    (AgreeOutside.writeWord_right (.refl _ m) _ ?_) _ ?_) _ ?_
  · exact fun byte member => mem_frameBytes.2 (.inl member)
  · exact fun byte member => mem_frameBytes.2 (.inr (.inl member))
  · exact fun byte member => mem_frameBytes.2 (.inr (.inr member))

end Memory

namespace Cpu

variable {β : Type} [Bus β]

theorem regs_enterInterrupt (c : Cpu β) (target : UInt16 × UInt16) (mask : Flags → Flags) :
    (c.enterInterrupt target mask).regs =
      { c.regs with
        sp := c.regs.sp - 6
        cs := target.1
        ip := target.2
        flags := mask c.regs.flags } := by
  rw [← sub_four_two, ← sub_two_two]
  rfl

theorem regs_returnFromInterrupt (c : Cpu β) : c.returnFromInterrupt.regs = c.popFrame.regs := by
  rcases c.returnFromInterrupt_cases with same | ⟨_, _, _, same⟩ <;> rw [same]
  rfl

/-- Without what a hardware interrupt sets aside. -/
def setAside (c : Cpu β) : Cpu β :=
  { c with prefixes := { c.prefixes with segment := none, rep := none }, loopBounds := none }

theorem regs_enterIrq (c : Cpu β) (irq : PendingIrq) (target : UInt16 × UInt16) :
    (c.enterIrq irq target).regs =
      { c.regs with
        sp := c.regs.sp - 6
        cs := target.1
        ip := target.2
        flags := c.regs.flags.maskInterrupts } :=
  c.setAside.regs_enterInterrupt target Flags.maskInterrupts

theorem irqFrames_enterIrq (c : Cpu β) (irq : PendingIrq) (target : UInt16 × UInt16) :
    (c.enterIrq irq target).irqFrames =
      (⟨c.regs.ss, c.regs.sp - 6, irq.line, c.irqContext⟩ :: c.irqFrames).take maxIrqFrames := by
  rw [← sub_four_two, ← sub_two_two]
  rfl

theorem bus_enterInterrupt (c : Cpu β) (target : UInt16 × UInt16) (mask : Flags → Flags) :
    (c.enterInterrupt target mask).bus =
      Bus.writeWord
        (Bus.writeWord
          (Bus.writeWord c.bus (physical c.regs.ss (c.regs.sp - 2)) c.regs.flags.toWord)
          (physical c.regs.ss (c.regs.sp - 2 - 2)) c.regs.cs)
        (physical c.regs.ss (c.regs.sp - 2 - 2 - 2)) c.regs.ip := rfl

theorem bus_enterIrq (c : Cpu β) (irq : PendingIrq) (target : UInt16 × UInt16) :
    (c.enterIrq irq target).bus = (c.setAside.enterInterrupt target Flags.maskInterrupts).bus := rfl

open MemoryBus (memory)

variable [MemoryBus β]

theorem memory_enterInterrupt (c : Cpu β) (target : UInt16 × UInt16) (mask : Flags → Flags) :
    memory (c.enterInterrupt target mask).bus = (memory c.bus).pushFrame c.regs := by
  rw [bus_enterInterrupt, MemoryBus.writeWord, MemoryBus.writeWord, MemoryBus.writeWord,
    sub_two_two, sub_four_two, Memory.pushFrame]

theorem memory_enterIrq (c : Cpu β) (irq : PendingIrq) (target : UInt16 × UInt16) :
    memory (c.enterIrq irq target).bus = (memory c.bus).pushFrame c.regs := by
  rw [bus_enterIrq, memory_enterInterrupt]
  rfl

theorem memory_syncTimer (c : Cpu β) : memory c.syncTimer.bus = memory c.bus :=
  MemoryBus.ticks c.bus c.ticksOwed

theorem memory_retire (c : Cpu β) : memory c.retire.bus = memory c.bus := rfl

theorem memory_returnFromInterrupt (c : Cpu β) :
    memory c.returnFromInterrupt.bus = memory c.bus := by
  rcases c.returnFromInterrupt_cases with same | ⟨frame, _, _, same⟩
  · rw [same]
    rfl
  · rw [same]
    exact MemoryBus.endOfInterrupt _ _

/-- A return finds the registers of an entry if the stack is as the entry left it. -/
theorem regs_popFrame (c : Cpu β) {r : Registers} (ss : c.regs.ss = r.ss)
    (sp : c.regs.sp = r.sp - 6) (h : (memory c.bus).HoldsFrame r) :
    c.popFrame.regs = { c.regs with ip := r.ip, cs := r.cs, flags := r.flags, sp := r.sp } := by
  have two : r.sp - 6 + 2 = r.sp - 4 := by rw [← sub_four_two, UInt16.sub_add_cancel]
  have four : r.sp - 4 + 2 = r.sp - 2 := by rw [← sub_two_two, UInt16.sub_add_cancel]
  have six : r.sp - 2 + 2 = r.sp := UInt16.sub_add_cancel _ _
  have unfolded : c.popFrame.regs =
      { c.regs with
        ip := (memory c.bus).readWord (physical c.regs.ss c.regs.sp)
        cs := (memory c.bus).readWord (physical c.regs.ss (c.regs.sp + 2))
        flags := .ofWord ((memory c.bus).readWord (physical c.regs.ss (c.regs.sp + 2 + 2)))
        sp := c.regs.sp + 2 + 2 + 2 } := by
    rw [← MemoryBus.readWord, ← MemoryBus.readWord, ← MemoryBus.readWord]
    rfl
  rw [unfolded, ss, sp, two, four, six, h.ip, h.cs, h.flags, Flags.ofWord_toWord]

end Cpu
end RealMode
