import RealMode.Proofs.Cpu.Steady

/-!
The parts of a fetch cycle. A step pays its ticks, advances by one instruction or waits, and then
looks for interrupts; a halted processor differs from a running one in the middle part only. The
return from an interrupt pops a frame and may, beyond that, end a hardware interrupt.
-/

namespace RealMode

@[simp] theorem Outcome.ok_andThen {β : Type} (c : Cpu β) (f : Cpu β → Outcome β) :
    (Outcome.ok c).andThen f = f c := rfl

namespace Cpu

variable {β : Type}

/-- Whether the innermost interrupt in service left the stack as it is now. -/
def atIrqFrame (c : Cpu β) (frame : IrqFrame) : Prop :=
  frame.ss = c.regs.ss ∧ frame.sp = c.regs.sp

/-- Whether the trap is due after the next instruction. -/
def armed (c : Cpu β) : Bool :=
  !c.halted && c.regs.flags.trap

theorem armed_of_running {c : Cpu β} (running : c.halted = false) :
    c.armed = c.regs.flags.trap := by
  rw [armed, running]
  rfl

variable [Bus β]

/-- The part of a return from an interrupt that does not look at the interrupts in service. -/
def popFrame (c : Cpu β) : Cpu β :=
  let (ip, c) := c.pop
  let (cs, c) := c.pop
  let (flags, c) := c.pop
  { c with regs := { c.regs with ip, cs, flags := .ofWord flags } }.spend 24

theorem plain_popFrame (c : Cpu β) : Plain c c.popFrame :=
  ((Plain.refl c).pop.pop.pop.withRegs _).spend 24

/-- The other part: it ends the innermost interrupt if that has left the stack so. -/
def endIrqAt (c : Cpu β) (ss sp : UInt16) : Cpu β :=
  match c.irqFrames with
  | frame :: outer => if frame.ss = ss ∧ frame.sp = sp then c.endIrq frame outer else c
  | [] => c

theorem returnFromInterrupt_eq (c : Cpu β) :
    c.returnFromInterrupt = c.popFrame.endIrqAt c.regs.ss c.regs.sp := rfl

theorem returnFromInterrupt_of_atIrqFrame {c : Cpu β} {frame : IrqFrame} {outer : List IrqFrame}
    (frames : c.irqFrames = frame :: outer) (here : c.atIrqFrame frame) :
    c.returnFromInterrupt = c.popFrame.endIrq frame outer := by
  have popped : c.popFrame.irqFrames = frame :: outer :=
    c.plain_popFrame.irqFrames.trans frames
  rw [returnFromInterrupt_eq, endIrqAt, popped]
  exact if_pos here

theorem returnFromInterrupt_of_not_atIrqFrame {c : Cpu β}
    (elsewhere : ∀ frame ∈ c.irqFrames.head?, ¬ c.atIrqFrame frame) :
    c.returnFromInterrupt = c.popFrame := by
  rw [returnFromInterrupt_eq, endIrqAt, c.plain_popFrame.irqFrames]
  cases frames : c.irqFrames with
  | nil => rfl
  | cons frame outer => exact if_neg (elsewhere frame (by rw [frames]; rfl))

theorem returnFromInterrupt_cases (c : Cpu β) :
    c.returnFromInterrupt = c.popFrame ∨
      ∃ frame outer, c.irqFrames = frame :: outer ∧
        c.returnFromInterrupt = c.popFrame.endIrq frame outer := by
  cases frames : c.irqFrames with
  | nil => exact .inl (returnFromInterrupt_of_not_atIrqFrame (by simp [frames]))
  | cons frame outer =>
      by_cases here : c.atIrqFrame frame
      · exact .inr ⟨frame, outer, rfl, returnFromInterrupt_of_atIrqFrame frames here⟩
      · exact .inl (returnFromInterrupt_of_not_atIrqFrame (by simpa [frames] using here))

/-- A step up to the point where it looks for interrupts. -/
def advance (c : Cpu β) : Outcome β :=
  if c.halted then .ok (c.spend c.config.timerRatio)
  else c.dispatch.andThen fun c => .ok c.retire

theorem idle_eq (c : Cpu β) :
    c.idle = (c.spend c.config.timerRatio).betweenInstructions false := by
  unfold idle betweenInstructions
  dsimp only
  split
  · cases (c.spend c.config.timerRatio).serviceIrq <;> rfl
  · rfl

theorem step_eq (c : Cpu β) :
    c.step = c.syncTimer.advance.andThen (·.betweenInstructions c.syncTimer.armed) := by
  unfold step advance armed
  dsimp only
  cases halted : c.syncTimer.halted with
  | true => exact c.syncTimer.idle_eq
  | false =>
      change cycle _ = _
      rw [cycle]
      rcases c.syncTimer.dispatch with ⟨d, missing⟩
      cases missing <;> rfl

/-- The instruction of the next cycle with its bytes consumed. -/
def fetched (c : Cpu β) : Cpu β :=
  c.setIp (c.regs.ip + c.fetch.length.toUInt16)

theorem advance_of_halted {c : Cpu β} (h : c.halted = true) :
    c.advance = .ok (c.spend c.config.timerRatio) :=
  if_pos h

theorem advance_of_running {c : Cpu β} (h : c.halted = false) :
    c.advance = (c.fetched.exec c.fetch.instr).andThen fun c => .ok c.retire := by
  rw [advance, if_neg (by rw [h]; exact Bool.false_ne_true)]
  rfl

end Cpu
end RealMode
