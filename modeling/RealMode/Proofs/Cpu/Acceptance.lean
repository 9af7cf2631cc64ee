import RealMode.Cpu.Step

/-!
The three answers of an interrupt controller: nothing is pending, a request has a handler, or its
handler is missing. A processor that takes empty vectors never misses one.
-/

namespace RealMode

/-- The processor when the controller has been asked. -/
def Acceptance.cpu {β : Type} : Acceptance β → Cpu β
  | .idle c | .accepted c | .refused c _ => c

namespace Cpu

variable {β : Type} [Bus β] {c : Cpu β} {irq : PendingIrq} {bus : β}

theorem handler_of_lenient (lenient : c.config.strictVectors = false) (vector : UInt8) :
    c.handler vector = .ok (Bus.readFar c.bus (vectorAddress vector)).swap := by
  rw [handler]
  simp only [lenient, Bool.false_and, Bool.false_eq_true, ↓reduceIte]
  rfl

theorem handler_of_ne_zero {vector : UInt8}
    (nonzero : Bus.readFar c.bus (vectorAddress vector) ≠ (0, 0)) :
    c.handler vector = .ok (Bus.readFar c.bus (vectorAddress vector)).swap := by
  rw [handler]
  refine if_neg fun empty => nonzero ?_
  simp only [Bool.and_eq_true, beq_iff_eq] at empty
  exact Prod.ext empty.1.2 empty.2

theorem handler_of_empty (strict : c.config.strictVectors = true) {vector : UInt8}
    (empty : Bus.readFar c.bus (vectorAddress vector) = (0, 0)) :
    c.handler vector = .error ⟨vector⟩ := by
  rw [handler, strict, empty]
  rfl

theorem interrupt_of_handler {vector : UInt8} {target : UInt16 × UInt16}
    (found : c.handler vector = .ok target) (mask : Flags → Flags) :
    c.interrupt vector mask = .ok (c.enterInterrupt target mask) := by
  rw [interrupt, found]

theorem serviceIrq_of_none (out : Bus.pendingIrq c.bus = (none, bus)) :
    c.serviceIrq = .idle { c with bus } := by
  rw [serviceIrq, out]

theorem serviceIrq_of_handler (out : Bus.pendingIrq c.bus = (some irq, bus))
    {target : UInt16 × UInt16} (found : { c with bus }.handler irq.vector = .ok target) :
    c.serviceIrq = .accepted ({ c with bus }.enterIrq irq target) := by
  rw [serviceIrq, out]
  dsimp only
  rw [found]

theorem serviceIrq_of_missing (out : Bus.pendingIrq c.bus = (some irq, bus)) {e : MissingHandler}
    (missing : { c with bus }.handler irq.vector = .error e) :
    c.serviceIrq = .refused { c with bus := Bus.endOfInterrupt bus irq.line } e := by
  rw [serviceIrq, out]
  dsimp only
  rw [missing]

theorem betweenInstructions_of_off (off : c.regs.flags.interrupt = false) (armed : Bool) :
    c.betweenInstructions armed = c.trapIf armed := by
  rw [betweenInstructions, if_neg (by rw [off]; exact Bool.false_ne_true)]

theorem betweenInstructions_of_idle (on : c.regs.flags.interrupt = true) {d : Cpu β}
    (h : c.serviceIrq = .idle d) (armed : Bool) : c.betweenInstructions armed = d.trapIf armed := by
  rw [betweenInstructions, if_pos on, h]

/-- Nobody is asked, or nothing is pending. -/
theorem betweenInstructions_of_nothing
    (nothing : c.regs.flags.interrupt = true → Bus.pendingIrq c.bus = (none, c.bus))
    (armed : Bool) : c.betweenInstructions armed = c.trapIf armed := by
  cases on : c.regs.flags.interrupt with
  | false => exact betweenInstructions_of_off on armed
  | true => rw [betweenInstructions_of_idle on (serviceIrq_of_none (nothing on))]

theorem betweenInstructions_of_accepted (on : c.regs.flags.interrupt = true) {d : Cpu β}
    (h : c.serviceIrq = .accepted d) {armed : Bool} : c.betweenInstructions armed = .ok d := by
  rw [betweenInstructions, if_pos on, h]

theorem betweenInstructions_of_refused (on : c.regs.flags.interrupt = true) {d : Cpu β}
    {e : MissingHandler} (h : c.serviceIrq = .refused d e) (armed : Bool) :
    c.betweenInstructions armed = ⟨d, some e⟩ := by
  rw [betweenInstructions, if_pos on, h]

end Cpu
end RealMode
