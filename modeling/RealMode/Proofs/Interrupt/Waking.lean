import RealMode.Proofs.Interrupt.Frame
import RealMode.Proofs.Interrupt.StepCases

/-!
Which handlers are run. An interrupt out of an instruction finds the processor running, and a
hardware interrupt wakes it. The trap after a halt does neither: its handler is entered by a
processor that has just stopped, and that, since the trap also turns interrupts off, stays so.
-/

namespace RealMode
namespace Cpu

variable {β : Type} [Bus β]

theorem halted_dispatch {c d : Cpu β} (running : c.halted = false) (done : c.dispatch = .ok d) :
    d.halted = true ↔ c.fetch.instr = .hlt := by
  change c.fetched.exec c.fetch.instr = .ok d at done
  by_cases isHalt : c.fetch.instr = .hlt
  · rw [isHalt] at done
    cases done
    exact ⟨fun _ => isHalt, fun _ => rfl⟩
  · have kept := c.fetched.halted_exec isHalt
    rw [done] at kept
    have awake : d.halted = false := Eq.trans kept running
    rw [awake]
    exact ⟨fun asleep => absurd asleep Bool.false_ne_true, fun halt => absurd halt isHalt⟩

theorem not_hlt_of_raised {c : Cpu β} {i : Instr} {r : Raised} (raised : c.raised? i = some r) :
    i ≠ .hlt := by
  rintro rfl
  cases raised

end Cpu

variable {β : Type} [Bus β]

/-- What a step makes of the processor that enters a handler as the last thing it does. -/
structure Entered (c d : Cpu β) (e : Event β) (line : Option UInt8) : Prop where
  regs : d.regs = e.after.regs
  handler : ∃ vector, e.before.handler vector = .ok (d.regs.cs, d.regs.ip)
  halted : d.halted = true ↔ c.halted = false ∧ c.syncTimer.fetch.instr = .hlt ∧ line = none
  stopped : d.halted = true → d.stopped = true

theorem Entered.of_awake {c d : Cpu β} {e : Event β} {line : Option UInt8}
    (regs : d.regs = e.after.regs)
    (handler : ∃ vector, e.before.handler vector = .ok (d.regs.cs, d.regs.ip))
    (awake : d.halted = false)
    (noTrap : c.halted = false → c.syncTimer.fetch.instr = .hlt → line ≠ none) :
    Entered c d e line where
  regs := regs
  handler := handler
  halted := by
    rw [awake]
    constructor
    · exact fun asleep => absurd asleep Bool.false_ne_true
    · exact fun ⟨running, halt, isTrap⟩ => absurd isTrap (noTrap running halt)
  stopped := by
    rw [awake]
    exact fun asleep => absurd asleep Bool.false_ne_true

/-- The handler that a step has entered is run from the next step on, but not the one that is
entered by the trap after a halt: that processor stays halted, and no interrupt can wake it. -/
theorem entry_runs_handler {c d : Cpu β} {e : Event β} {line : Option UInt8} (done : c.step = .ok d)
    (last : c.stepEvents.getLast? = some e) (isEntry : e.kind = .entry line) :
    Entered c d e line ∧ (d.halted = false → d.step = d.syncTimer.cycle) := by
  refine ⟨?_, fun running => if_neg (Bool.eq_false_iff.1 running)⟩
  have all := c.stepped
  rw [done] at all
  generalize c.stepEvents = events at all last
  cases all with
  | idle halted between =>
      cases between with
      | nothing => cases last
      | trap _ due => cases due
      | accepted _ _ found =>
          cases last
          cases isEntry
          refine .of_awake rfl ⟨_, found⟩ rfl fun running => ?_
          rw [halted] at running
          cases running
  | @cycle _ _ finished _ running origin executed between =>
      have stops := Cpu.halted_dispatch (c := c.syncTimer) running origin
      cases between with
      | nothing polled =>
          rw [List.append_nil] at last
          cases executed with
          | returns =>
              cases last
              cases isEntry
          | works => cases last
          | raises raised found =>
              cases last
              cases isEntry
              have other := Cpu.not_hlt_of_raised raised
              have awake := Bool.eq_false_iff.2 (mt stops.1 other)
              cases polled with
              | off => exact .of_awake rfl ⟨_, found⟩ awake fun _ halt => absurd halt other
              | idle => exact .of_awake rfl ⟨_, found⟩ awake fun _ halt => absurd halt other
      | @trap polledCpu _ polled _ found =>
          rw [List.getLast?_concat] at last
          cases last
          cases isEntry
          have kept : polledCpu.halted = finished.halted := by cases polled <;> rfl
          refine ⟨rfl, ⟨_, found⟩, ?_, fun asleep => ?_⟩
          · change polledCpu.halted = true ↔ _
            rw [kept, stops]
            exact ⟨fun halt => ⟨running, halt, rfl⟩, fun h => h.2.1⟩
          · rw [Cpu.stopped, asleep, Cpu.regs_enterInterrupt]
            rfl
      | accepted _ _ found =>
          rw [List.getLast?_concat] at last
          cases last
          cases isEntry
          exact .of_awake rfl ⟨_, found⟩ rfl fun _ _ => Option.some_ne_none _

/-- A halt under the trap flag. The handler of the trap stands at 0000:0020. -/
def trappedStart : Cpu FlatBus where
  regs := { ip := 0x10, sp := 0x40, flags := { trap := true } }
  bus := { memory := (Memory.zero.set 0x10 0xF4).set 4 0x20 }
  config := .ofRatio .i8086 4 false

def trappedHalted : Cpu FlatBus :=
  (trappedStart.syncTimer.setIp 0x11).halt.retire

def trappedEnd : Cpu FlatBus :=
  trappedHalted.enterInterrupt (0, 0x20) Flags.maskInterrupts

theorem step_trappedStart :
    trappedStart.step = .ok trappedEnd ∧
      trappedStart.stepEvents = [⟨.entry none, trappedHalted, trappedEnd⟩] := by
  have stands : trappedStart.syncTimer.Stands .hlt := by decide
  have vector : Bus.readFar trappedHalted.bus (vectorAddress 1) = (0x20, 0) := by decide
  have found : trappedHalted.handler Exception.singleStep.vector = .ok (0, 0x20) := by
    rw [Cpu.handler_of_lenient rfl]
    exact congrArg (fun v => Except.ok v.swap) vector
  constructor
  · rw [Cpu.step_of_stands rfl stands rfl]
    refine (Cpu.betweenInstructions_of_off (c := trappedHalted) rfl true).trans ?_
    change trappedHalted.interrupt Exception.singleStep.vector Flags.maskInterrupts = _
    rw [Cpu.interrupt, found]
    rfl
  · rw [Cpu.stepEvents_of_stands rfl stands rfl]
    refine (Cpu.betweenEvents_of_off (c := trappedHalted) rfl true).trans ?_
    change trappedHalted.entryEvents Exception.singleStep.vector Flags.maskInterrupts = _
    rw [Cpu.entryEvents, found]
    rfl

theorem entry_runs_handler_halt :
    trappedStart.step = .ok trappedEnd ∧
      trappedStart.stepEvents.getLast? = some ⟨.entry none, trappedHalted, trappedEnd⟩ ∧
      Entered trappedStart trappedEnd ⟨.entry none, trappedHalted, trappedEnd⟩ none := by
  have last := congrArg List.getLast? step_trappedStart.2
  exact ⟨step_trappedStart.1, last, (entry_runs_handler step_trappedStart.1 last rfl).1⟩

/-- Not every handler that is entered is run. -/
theorem halted_in_handler :
    ¬ ∀ (c d : Cpu FlatBus) (e : Event FlatBus) (line : Option UInt8), c.step = .ok d →
      c.stepEvents.getLast? = some e → e.kind = .entry line → d.halted = false := by
  intro all
  have last := congrArg List.getLast? step_trappedStart.2
  have awake := all _ _ _ none step_trappedStart.1 last rfl
  cases awake

end RealMode
