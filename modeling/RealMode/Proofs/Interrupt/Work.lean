import RealMode.Proofs.Interrupt.StepCases

/-!
Steps as chains of small works. Once a step has paid its timer ticks, all that it does is a chain of
a few kinds of work, so that what each kind keeps is kept by every step.
-/

namespace RealMode
namespace Cpu

variable {β : Type} [Bus β]

/-- `d` comes from `c` by the work of steps, in which no timer tick is paid. -/
inductive Work (c : Cpu β) : Cpu β → Prop
  | refl : Work c c
  | steady {d e : Cpu β} (h : Work c d) (steady : Steady d e) : Work c e
  | retire {d : Cpu β} (h : Work c d) : Work c d.retire
  | endIrq {d : Cpu β} (h : Work c d) (frame : IrqFrame) (outer : List IrqFrame) :
      Work c (d.endIrq frame outer)
  | askIrq {d : Cpu β} (h : Work c d) : Work c { d with bus := (Bus.pendingIrq d.bus).2 }
  | enterIrq {d : Cpu β} (h : Work c d) (irq : PendingIrq) (target : UInt16 × UInt16) :
      Work c (d.enterIrq irq target)
  | refuseIrq {d : Cpu β} (h : Work c d) (line : UInt8) :
      Work c { d with bus := Bus.endOfInterrupt d.bus line }

namespace Work

variable {c d : Cpu β}

theorem returnFromInterrupt (h : Work c d) : Work c d.returnFromInterrupt := by
  have popped : Work c d.popFrame := h.steady d.plain_popFrame.toSteady
  rcases d.returnFromInterrupt_cases with same | ⟨_, _, _, same⟩
  · rwa [same]
  · rw [same]
    exact popped.endIrq _ _

theorem execution (h : Work c d) {i : Instr} {events : List (Event β)} {o : Outcome β}
    (executed : Execution d i events o) : Work c o.cpu := by
  cases executed with
  | returns => exact h.returnFromInterrupt
  | works notReturn _ done =>
      have work := d.steady_exec notReturn
      rw [done] at work
      exact h.steady work
  | @raises r target =>
      have spent := (Steady.refl d).spend r.before
      exact h.steady ((spent.enterInterrupt target id).spend r.after)
  | @missing r => exact h.steady ((Steady.refl d).spend r.before)

theorem polled {e : Cpu β} (h : Work c d) (polled : Polled d e) : Work c e := by
  cases polled with
  | off => exact h
  | idle _ out =>
      have asked := h.askIrq
      rwa [out] at asked

theorem boundary (h : Work c d) {armed : Bool} {events : List (Event β)} {o : Outcome β}
    (between : Boundary d armed events o) : Work c o.cpu := by
  cases between with
  | nothing polled => exact h.polled polled
  | trap polled =>
      exact (h.polled polled).steady ((Steady.refl _).enterInterrupt _ Flags.maskInterrupts)
  | missingTrap polled => exact h.polled polled
  | accepted _ out =>
      have asked := h.askIrq
      rw [out] at asked
      exact asked.enterIrq _ _
  | @refused irq _ _ _ out =>
      have asked := h.askIrq
      rw [out] at asked
      exact asked.refuseIrq irq.line

end Work

/-- What is left of a step when its ticks are paid. -/
theorem work_step (c : Cpu β) : Work c.syncTimer c.step.cpu := by
  have start : Work c.syncTimer c.syncTimer := .refl
  have all := c.stepped
  generalize c.stepEvents = events at all
  generalize c.step = o at all
  cases all with
  | idle _ between => exact (start.steady ((Steady.refl _).spend _)).boundary between
  | cycle _ _ executed between =>
      have fetched : Work c.syncTimer c.syncTimer.fetched := start.steady ((Steady.refl _).setIp _)
      exact (fetched.execution executed).retire.boundary between
  | broken => exact start.steady (((Steady.refl _).setIp _).spend _)

end Cpu
end RealMode
