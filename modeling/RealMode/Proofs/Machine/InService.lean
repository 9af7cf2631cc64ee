import RealMode.Device.Peripheral
import RealMode.Proofs.Cpu.Acceptance
import RealMode.Proofs.Cpu.Fetch
import RealMode.Proofs.Machine.History
import RealMode.Proofs.Pic.Priority

/-!
Every line that the controller has in service belongs to a frame of the processor. The bit is set by
an acknowledgement, and the frame comes later, when the handler is entered; a program may clear bits
behind the processor's back, which is harmless, but nothing else than an acknowledgement sets one.
-/

namespace RealMode
namespace PcBus

variable {δ : Type} [PortDevice δ] {b d : PcBus δ} {line : UInt8}

theorem pic_readPort (b : PcBus δ) (port : UInt16) : (b.readPort port).2.pic = b.pic := by
  rw [readPort]
  split
  next owner _ =>
    cases owner with
    | pic | pit => rfl
    | attached i =>
        rw [getOwned]
        split <;> rfl
  next => rfl

theorem serves_of_serves_writePort {port : UInt16} {value : UInt8} (h : line ∈ Pic.lines)
    (after : (b.writePort port value).pic.serves line) : b.pic.serves line := by
  rw [writePort] at after
  split at after
  next owner _ =>
    cases owner with
    | pic => exact Pic.serves_of_serves_setByte h after
    | pit => exact after
    | attached i =>
        rw [setOwned] at after
        split at after <;> exact after
  next => exact after

theorem serves_of_serves_access (h : line ∈ Pic.lines) (access : Bus.Access b d)
    (after : d.pic.serves line) : b.pic.serves line := by
  induction access with
  | refl => exact after
  | writeByte _ _ _ ih => exact ih after
  | writeWord _ _ _ ih => exact ih after
  | readPort _ port ih =>
      refine ih ?_
      rwa [← pic_readPort _ port]
  | writePort _ _ _ ih => exact ih (serves_of_serves_writePort h after)
  | @readPortWord d _ port ih =>
      refine ih ?_
      change (d.readPortWord port).2.pic.serves line at after
      rw [readPortWord] at after
      split at after
      · exact after
      · rwa [pic_readPort, pic_readPort] at after
  | @writePortWord d _ port value ih =>
      refine ih ?_
      change (d.writePortWord port value).pic.serves line at after
      rw [writePortWord] at after
      split at after
      · exact after
      · exact serves_of_serves_writePort h (serves_of_serves_writePort h after)

theorem serves_ticks (b : PcBus δ) (n : Nat) :
    (Bus.ticks b n).pic.serves line = b.pic.serves line := by
  induction n generalizing b with
  | zero => rfl
  | succ n ih =>
      have one : (Bus.tick b).pic.serves line = b.pic.serves line := by
        change (if b.pit.tick.1 then b.pic.raise .timer else b.pic).serves line = _
        split <;> rfl
      exact (ih (Bus.tick b)).trans one

end PcBus

namespace Cpu

variable {δ : Type} {c d : Cpu (PcBus δ)}

/-- Each line in service has a frame. -/
def FramesLines (c : Cpu (PcBus δ)) : Prop :=
  ∀ line ∈ Pic.lines, c.bus.pic.serves line → ∃ frame ∈ c.irqFrames, frame.line = line

theorem FramesLines.mono (h : c.FramesLines) (frames : d.irqFrames = c.irqFrames)
    (fewer : ∀ line ∈ Pic.lines, d.bus.pic.serves line → c.bus.pic.serves line) :
    d.FramesLines := by
  intro line isLine serves
  rw [frames]
  exact h line isLine (fewer line isLine serves)

variable [PortDevice δ]

/-- The step accepts an interrupt although as many are open as are remembered. -/
def DropsFrame (c : Cpu (PcBus δ)) : Prop :=
  ∃ d e, c.syncTimer.advance = .ok d ∧ d.regs.flags.interrupt = true ∧
    d.serviceIrq = .accepted e ∧ maxIrqFrames ≤ d.irqFrames.length

theorem FramesLines.steady (h : c.FramesLines) (steady : Steady c d) : d.FramesLines :=
  h.mono steady.irqFrames fun _ isLine => PcBus.serves_of_serves_access isLine steady.bus

theorem FramesLines.endIrq (h : c.FramesLines) {frame : IrqFrame} {outer : List IrqFrame}
    (frames : c.irqFrames = frame :: outer) : (c.endIrq frame outer).FramesLines := by
  intro line isLine serves
  change (c.bus.pic.endOfInterrupt frame.line).serves line = true at serves
  rw [Pic.serves_endOfInterrupt c.bus.pic frame.line isLine, Bool.and_eq_true, bne_iff_ne] at serves
  obtain ⟨found, member, same⟩ := h line isLine serves.1
  rw [frames] at member
  rcases List.mem_cons.1 member with rfl | member
  · exact absurd (by rw [same, Pic.and_seven isLine]) serves.2
  · exact ⟨found, member, same⟩

theorem FramesLines.returnFromInterrupt (h : c.FramesLines) :
    c.returnFromInterrupt.FramesLines := by
  have popped : c.popFrame.FramesLines := h.steady c.plain_popFrame.toSteady
  rcases c.returnFromInterrupt_cases with same | ⟨_, _, frames, same⟩
  · rwa [same]
  · rw [same]
    exact popped.endIrq frames

theorem FramesLines.advance (h : c.FramesLines) : c.advance.cpu.FramesLines := by
  by_cases halted : c.halted = true
  · rw [advance_of_halted halted]
    exact h.steady ((Steady.refl c).spend _)
  · rw [advance_of_running (Bool.eq_false_iff.2 halted)]
    have fetched : c.fetched.FramesLines := h.steady ((Steady.refl c).setIp _)
    have done : (c.fetched.exec c.fetch.instr).cpu.FramesLines := by
      by_cases isReturn : c.fetch.instr = .iret
      · rw [isReturn]
        exact fetched.returnFromInterrupt
      · exact fetched.steady (c.fetched.steady_exec isReturn)
    generalize c.fetched.exec c.fetch.instr = o at done
    rcases o with ⟨d, missing⟩
    cases missing with
    | none => exact done.mono rfl fun _ _ => id
    | some _ => exact done

theorem FramesLines.enterIrq {irq : PendingIrq} {target : UInt16 × UInt16}
    (room : c.irqFrames.length < maxIrqFrames)
    (h : ∀ line ∈ Pic.lines, c.bus.pic.serves line →
      line = irq.line ∨ ∃ frame ∈ c.irqFrames, frame.line = line) :
    (c.enterIrq irq target).FramesLines := by
  have entered := (((Steady.refl c).withPrefixes { c.prefixes with segment := none, rep := none
    }).withLoopBounds none).enterInterrupt target Flags.maskInterrupts
  intro line isLine serves
  have all : ∀ frame : IrqFrame, (frame :: c.irqFrames).take maxIrqFrames = frame :: c.irqFrames :=
    fun frame => List.take_of_length_le room
  change ∃ frame ∈ (_ :: c.irqFrames).take maxIrqFrames, frame.line = line
  rw [all]
  rcases h line isLine (PcBus.serves_of_serves_access isLine entered.bus serves) with rfl | old
  · exact ⟨_, List.mem_cons_self, rfl⟩
  · obtain ⟨frame, member, same⟩ := old
    exact ⟨frame, List.mem_cons_of_mem _ member, same⟩

/-- A line is acknowledged with its frame or, without a handler, is ended at once. -/
theorem FramesLines.serviceIrq (h : c.FramesLines)
    (room : ∀ e, c.serviceIrq = .accepted e → c.irqFrames.length < maxIrqFrames) :
    c.serviceIrq.cpu.FramesLines := by
  have pending : Bus.pendingIrq c.bus =
      (c.bus.pic.acknowledge.1, { c.bus with pic := c.bus.pic.acknowledge.2 }) := rfl
  cases out : c.bus.pic.acknowledge.1 with
  | none =>
      rw [out, Pic.acknowledge_of_idle out] at pending
      rw [serviceIrq_of_none pending]
      exact h
  | some irq =>
      have hands := Pic.handsOut_of_acknowledge out
      rw [out] at pending
      cases found : { c with bus := { c.bus with pic := c.bus.pic.acknowledge.2 } }.handler
          irq.vector with
      | ok target =>
          have accepted := serviceIrq_of_handler pending found
          rw [accepted]
          refine FramesLines.enterIrq (room _ accepted) fun line isLine serves => ?_
          rw [hands.serves line isLine, Bool.or_eq_true, beq_iff_eq] at serves
          exact serves.symm.imp id (h line isLine)
      | error e =>
          -- The line has been acknowledged but is ended before anything is pushed.
          rw [serviceIrq_of_missing pending found]
          refine h.mono rfl fun line isLine serves => ?_
          change (c.bus.pic.acknowledge.2.endOfInterrupt irq.line).serves line = true at serves
          have handed := ((Pic.handedOut_iff _ irq).1 out).1.isLine
          rw [Pic.serves_endOfInterrupt _ _ isLine, hands.serves line isLine,
            Pic.and_seven handed, Bool.and_eq_true, Bool.or_eq_true, beq_iff_eq, bne_iff_ne]
            at serves
          exact serves.1.resolve_right serves.2

theorem FramesLines.trapIf (h : c.FramesLines) (armed : Bool) :
    (c.trapIf armed).cpu.FramesLines := by
  rw [Cpu.trapIf]
  split
  · exact h.steady ((Steady.refl c).interrupt _ _)
  · exact h

theorem FramesLines.betweenInstructions (h : c.FramesLines) (armed : Bool)
    (room : ∀ e, c.regs.flags.interrupt = true → c.serviceIrq = .accepted e →
      c.irqFrames.length < maxIrqFrames) :
    (c.betweenInstructions armed).cpu.FramesLines := by
  rw [Cpu.betweenInstructions]
  split
  next on =>
    have served := h.serviceIrq fun e => room e on
    split
    next found =>
      rw [found] at served
      exact served.trapIf armed
    next found =>
      rw [found] at served
      exact served
    next found =>
      rw [found] at served
      exact served
  next => exact h.trapIf armed

theorem FramesLines.step (h : c.FramesLines) (fits : ¬ c.DropsFrame) : c.step.cpu.FramesLines := by
  have paid : c.syncTimer.FramesLines := by
    refine h.mono rfl fun line _ serves => ?_
    rwa [← PcBus.serves_ticks c.bus c.ticksOwed]
  have advanced := paid.advance
  rw [step_eq]
  cases o : c.syncTimer.advance with
  | mk d missing =>
      rw [o] at advanced
      cases missing with
      | none =>
          refine advanced.betweenInstructions _ fun e on accepted => ?_
          exact Nat.lt_of_not_le fun full => fits ⟨d, e, o, on, accepted, full⟩
      | some _ => exact advanced

end Cpu

namespace Machine

variable {δ : Type}

theorem framesLines_powerOn {c : Cpu (PcBus δ)} (h : c.bus.pic = {}) : c.FramesLines := by
  intro line _ serves
  rw [h, Pic.serves, Pic.holds_zero] at serves
  exact absurd serves Bool.false_ne_true

variable [PortDevice δ]

theorem framesLines_perform {m : Machine δ} {op : Op δ}
    (fits : ∀ c ∈ m.starts op, ¬ c.DropsFrame) (h : m.cpu.FramesLines) :
    (m.perform op).cpu.FramesLines := by
  by_cases installs : op.installs = true
  · obtain ⟨_, _, _, same⟩ := perform_of_installs (m := m) installs
    rw [same]
    exact h
  · cases op with
    | attach | loadProgram | loadBootstrapped | loadBios => exact absurd rfl installs
    | setEntry | raise | setStop => exact h
    | reset => exact framesLines_powerOn rfl
    | step => exact h.step (fits m.cpu List.mem_cons_self)
    | run mode => exact runSteps_keeps (fun d member before => before.step (fits d member)) h

/-- Unless a frame had to be forgotten, no line stays in service without one. -/
theorem frame_of_serves (config : Config) {ops : List (Op δ)}
    (fits : ∀ c ∈ (ofConfig config).stepStarts ops, ¬ c.DropsFrame) {line : UInt8}
    (isLine : line ∈ Pic.lines) (serves : (after config ops).bus.pic.serves line) :
    ∃ frame ∈ (after config ops).cpu.irqFrames, frame.line = line := by
  have start : (ofConfig config : Machine δ).cpu.FramesLines := framesLines_powerOn rfl
  have run := foldl_perform_keeps (P := fun m => m.cpu.FramesLines)
    (fun m op fits h => framesLines_perform fits h) fits start
  exact run line isLine serves

theorem perform_loadProgram_byte (m : Machine δ) (value : UInt8) :
    m.perform (.loadProgram 0xFFFF ⟨#[value]⟩) =
      m.mapBus fun b => { b with memory := b.memory.set bootVector value } := by
  have size : (⟨#[value]⟩ : ByteArray).size = 1 := rfl
  have loaded : m.cpu.loadProgram 0xFFFF ⟨#[value]⟩ =
      .ok { m.cpu with bus := Bus.loadBlock m.cpu.bus bootVector ⟨#[value]⟩ } := by
    rw [Cpu.loadProgram]
    rw [size, if_neg (by decide), if_neg (by decide), if_neg (by decide)]
    rfl
  rw [perform, loadProgram, loaded]
  exact congrArg (fun memory => m.mapBus fun b => { b with memory }) (Memory.loadBlock_byte _ _ _)

/-- The processor turns interrupts on while the timer requests one. -/
def timerHistory : List (Op Peripheral) :=
  [.loadProgram 0xFFFF ⟨#[0xFB]⟩, .raise .timer, .step]

def timerStart : Cpu (PcBus Peripheral) where
  bus := { memory := Memory.zero.set bootVector 0xFB, pic := Pic.raise {} .timer }
  config := .ofRatio .i8086 4 false

theorem perform_timerHistory :
    ((ofConfig {}).perform (.loadProgram 0xFFFF ⟨#[0xFB]⟩)).perform (.raise .timer) =
      { cpu := timerStart } := by
  rw [perform_loadProgram_byte]
  rfl

def timerReady : Cpu (PcBus Peripheral) :=
  { ((timerStart.setIp 1).flag .setInterrupt) with instructions := 1 }

theorem stands_timerStart : timerStart.syncTimer.Stands (.flag .setInterrupt) :=
  Cpu.stands_of_set rfl rfl

theorem advance_timerStart : timerStart.syncTimer.advance = .ok timerReady := by
  rw [Cpu.advance_of_stands rfl stands_timerStart]
  rfl

theorem not_dropsFrame_timerStart : ¬ timerStart.DropsFrame := by
  rintro ⟨d, e, advanced, -, -, full⟩
  rw [advance_timerStart] at advanced
  cases advanced
  exact absurd full (by decide)

theorem serves_timerStart : timerStart.step.cpu.bus.pic.serves 0 := by
  have accepted := Cpu.serviceIrq_of_handler (c := timerReady) rfl (Cpu.handler_of_lenient rfl _)
  rw [Cpu.step_eq, advance_timerStart, Outcome.ok_andThen,
    Cpu.betweenInstructions_of_accepted rfl accepted]
  rfl

theorem cpu_perform_step (m : Machine δ) : (m.perform .step).cpu = m.cpu.step.cpu := rfl

/-- The timer is in service after `timerHistory`, and so it has a frame. -/
theorem frame_of_serves_timer :
    (∀ c ∈ (ofConfig {}).stepStarts timerHistory, ¬ c.DropsFrame) ∧
      (after {} timerHistory).bus.pic.serves 0 ∧
      ∃ frame ∈ (after {} timerHistory).cpu.irqFrames, frame.line = 0 := by
  have fits : ∀ c ∈ (ofConfig {}).stepStarts timerHistory, ¬ c.DropsFrame := by
    intro c member
    rw [timerHistory, stepStarts, stepStarts, perform_timerHistory] at member
    rw [List.mem_singleton.1 (show c ∈ [timerStart] from member)]
    exact not_dropsFrame_timerStart
  have last : (after {} timerHistory).cpu = timerStart.step.cpu := by
    rw [after, timerHistory, List.foldl_cons, List.foldl_cons, perform_timerHistory,
      List.foldl_cons, List.foldl_nil, cpu_perform_step]
  have serves : (after {} timerHistory).bus.pic.serves 0 := by
    rw [bus, last]
    exact serves_timerStart
  exact ⟨fits, serves, frame_of_serves {} fits (by decide) serves⟩

end Machine
end RealMode
