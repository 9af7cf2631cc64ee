import RealMode.Proofs.Bus.Ticked
import RealMode.Proofs.Interrupt.Work

/-!
The timer follows the clock. Every part of a step spends clocks of its own and pays no ticks; at
the start of the next step all that is owed is paid at once. The ticks paid never amount to more
clocks than have gone by, and after paying less than the clocks of one tick are left over.
-/

namespace RealMode
namespace Cpu

variable {β : Type} [Bus β]

/-- What the ticks amount to in clocks, and that they have been earned. -/
structure OnTime (c : Cpu β) : Prop where
  paid : c.lastTimerTick = c.config.timerRatio * c.timerTicks
  earned : c.lastTimerTick ≤ c.clock

namespace OnTime

variable {c : Cpu β}

theorem syncTimer (h : c.OnTime) : c.syncTimer.OnTime where
  paid := by
    change c.lastTimerTick + c.ticksOwed * c.config.timerRatio =
      c.config.timerRatio * (c.timerTicks + c.ticksOwed)
    rw [h.paid, Nat.mul_add, Nat.mul_comm c.ticksOwed]
  earned := by
    have owed : c.config.timerRatio * c.ticksOwed ≤ c.clock - c.lastTimerTick := Nat.mul_div_le _ _
    have earned := h.earned
    change c.lastTimerTick + c.ticksOwed * c.config.timerRatio ≤ c.clock
    rw [Nat.mul_comm]
    omega

theorem timerTicks_syncTimer (h : c.OnTime) :
    c.syncTimer.timerTicks = c.clock / c.config.timerRatio := by
  have split : c.clock = c.config.timerRatio * c.timerTicks + (c.clock - c.lastTimerTick) := by
    have earned := h.earned
    rw [← h.paid]
    omega
  change c.timerTicks + (c.clock - c.lastTimerTick) / c.config.timerRatio = _
  calc c.timerTicks + (c.clock - c.lastTimerTick) / c.config.timerRatio
    _ = (c.config.timerRatio * c.timerTicks + (c.clock - c.lastTimerTick)) /
          c.config.timerRatio := (Nat.mul_add_div c.config.timerRatio_pos _ _).symm
    _ = c.clock / c.config.timerRatio := by rw [← split]

/-- What is left over when a step fetches or waits. -/
theorem clock_syncTimer (h : c.OnTime) :
    c.syncTimer.clock - c.syncTimer.lastTimerTick < c.config.timerRatio := by
  have paid : c.syncTimer.lastTimerTick = c.config.timerRatio * c.syncTimer.timerTicks :=
    h.syncTimer.paid
  have rest := Nat.mod_lt c.clock c.config.timerRatio_pos
  have division := Nat.div_add_mod c.clock c.config.timerRatio
  change c.clock - _ < _
  rw [paid, h.timerTicks_syncTimer]
  omega

end OnTime

/-- `d` comes from `c` without a tick. -/
structure Unpaid (host : β → β → Prop) (c d : Cpu β) : Prop where
  config : d.config = c.config
  lastTimerTick : d.lastTimerTick = c.lastTimerTick
  timerTicks : d.timerTicks = c.timerTicks
  clock : c.clock ≤ d.clock
  bus : Bus.Ticked host c.bus 0 d.bus

namespace Unpaid

variable {host : β → β → Prop} {c d e : Cpu β}

theorem refl (c : Cpu β) : Unpaid host c c :=
  ⟨rfl, rfl, rfl, Nat.le_refl _, .refl⟩

theorem steady (h : Unpaid host c d) (steady : Steady d e) : Unpaid host c e where
  config := steady.config.trans h.config
  lastTimerTick := steady.lastTimerTick.trans h.lastTimerTick
  timerTicks := steady.timerTicks.trans h.timerTicks
  clock := Nat.le_trans h.clock steady.clock
  bus := h.bus.access steady.bus

theorem enterIrq (h : Unpaid host c d) (irq : PendingIrq) (target : UInt16 × UInt16) :
    Unpaid host c (d.enterIrq irq target) := by
  have aside := ((Steady.refl d).withPrefixes { d.prefixes with segment := none, rep := none
    }).withLoopBounds none
  have entered := h.steady (aside.enterInterrupt target Flags.maskInterrupts)
  exact ⟨entered.config, entered.lastTimerTick, entered.timerTicks, entered.clock, entered.bus⟩

end Unpaid

theorem Work.unpaid {c d : Cpu β} (h : Work c d) (host : β → β → Prop) : Unpaid host c d := by
  induction h with
  | refl => exact .refl c
  | steady _ steady ih => exact ih.steady steady
  | retire _ ih => exact ⟨ih.config, ih.lastTimerTick, ih.timerTicks, ih.clock, ih.bus⟩
  | endIrq _ frame _ ih =>
      exact ⟨ih.config, ih.lastTimerTick, ih.timerTicks, ih.clock, ih.bus.endOfInterrupt frame.line⟩
  | askIrq _ ih => exact ⟨ih.config, ih.lastTimerTick, ih.timerTicks, ih.clock, ih.bus.pendingIrq⟩
  | enterIrq _ irq target ih => exact ih.enterIrq irq target
  | refuseIrq _ line ih =>
      exact ⟨ih.config, ih.lastTimerTick, ih.timerTicks, ih.clock, ih.bus.endOfInterrupt line⟩

theorem OnTime.unpaid {host : β → β → Prop} {c d : Cpu β} (h : c.OnTime) (work : Unpaid host c d) :
    d.OnTime where
  paid := by rw [work.lastTimerTick, work.timerTicks, work.config, h.paid]
  earned := by
    rw [work.lastTimerTick]
    exact Nat.le_trans h.earned work.clock

theorem unpaid_step (c : Cpu β) (host : β → β → Prop) : Unpaid host c.syncTimer c.step.cpu :=
  c.work_step.unpaid host

end Cpu

variable {β : Type} [Bus β]

/-- What a run keeps of the configuration, the ticks and the bus. -/
structure Timed (host : β → β → Prop) (start c : Cpu β) : Prop where
  config : c.config = start.config
  onTime : c.OnTime
  bus : Bus.Ticked host start.bus c.timerTicks c.bus

namespace Timed

variable {host : β → β → Prop} {start c : Cpu β}

theorem step (h : Timed host start c) : Timed host start c.step.cpu := by
  have work := c.unpaid_step host
  refine ⟨work.config.trans h.config, h.onTime.syncTimer.unpaid work, ?_⟩
  rw [work.timerTicks]
  exact (h.bus.ticks c.ticksOwed).trans work.bus

theorem act (h : Timed host start c) {bus : β} (act : host c.bus bus) :
    Timed host start { c with bus } :=
  ⟨h.config, ⟨h.onTime.paid, h.onTime.earned⟩, h.bus.act act⟩

end Timed

theorem Run.timed {host : β → β → Prop} {start c : Cpu β} {events : List (Event β)}
    (run : Run host start events c) (onTime : start.OnTime) (none : start.timerTicks = 0) :
    Timed host start c := by
  induction run with
  | refl =>
      refine ⟨rfl, onTime, ?_⟩
      rw [none]
      exact .refl
  | step _ ih => exact ih.step
  | act _ act ih => exact ih.act act

/-- In a run from power on every clock is accounted for: ticks are neither lost nor paid twice,
whatever the steps do and even if they break off. -/
theorem timer_follows_clock {host : β → β → Prop} {variant : Variant} {ratio : Nat}
    {strictVectors : Bool} {regs : Registers} {bus : β} {events : List (Event β)} {c : Cpu β}
    (run : Run host { regs, bus, config := .ofRatio variant ratio strictVectors } events c) :
    (c.lastTimerTick = max 1 ratio * c.timerTicks ∧ c.lastTimerTick ≤ c.clock) ∧
      Bus.Ticked host bus c.timerTicks c.bus ∧
      (c.syncTimer.lastTimerTick ≤ c.syncTimer.clock ∧
        c.syncTimer.clock - c.syncTimer.lastTimerTick < max 1 ratio) ∧
      c.step.cpu.timerTicks = c.clock / max 1 ratio := by
  have timed := run.timed ⟨(Nat.mul_zero _).symm, Nat.le_refl 0⟩ rfl
  have isRatio : c.config.timerRatio = max 1 ratio := by rw [timed.config, Config.ofRatio]
  rw [← isRatio]
  refine ⟨⟨timed.onTime.paid, timed.onTime.earned⟩, timed.bus,
    ⟨timed.onTime.syncTimer.earned, timed.onTime.clock_syncTimer⟩, ?_⟩
  rw [(c.unpaid_step host).timerTicks, timed.onTime.timerTicks_syncTimer]

/-- A program that halts at once, with a tick for every other clock. -/
def tickingStart : Cpu FlatBus where
  regs := { ip := 0x10 }
  bus := { memory := (Memory.zero.set 0x10 0x90).set 0x11 0xF4 }
  config := .ofRatio .i8086 2 false

def tickingRunning : Cpu FlatBus :=
  ((tickingStart.syncTimer.setIp 0x11).spend 3).retire

def tickingHalted : Cpu FlatBus :=
  (tickingRunning.syncTimer.setIp 0x12).halt.retire

def tickingIdle : Cpu FlatBus :=
  tickingHalted.syncTimer.spend 2

theorem step_tickingStart : tickingStart.step = .ok tickingRunning := by
  have stands : tickingStart.syncTimer.Stands .nop := by decide
  rw [Cpu.step_of_stands rfl stands rfl]
  exact Cpu.betweenInstructions_of_off rfl false

theorem step_tickingRunning : tickingRunning.step = .ok tickingHalted := by
  have stands : tickingRunning.syncTimer.Stands .hlt := by decide
  rw [Cpu.step_of_stands rfl stands rfl]
  exact Cpu.betweenInstructions_of_off rfl false

theorem step_tickingHalted : tickingHalted.step = .ok tickingIdle := by
  have halted : tickingHalted.syncTimer.halted = true := rfl
  rw [Cpu.step_eq, Cpu.advance_of_halted halted]
  exact Cpu.betweenInstructions_of_off (c := tickingIdle) rfl _

theorem steps_tickingStart : tickingStart.step.cpu.step.cpu.step.cpu = tickingIdle := by
  simp only [step_tickingStart, step_tickingRunning, step_tickingHalted, Outcome.ok]

/-- Ticks are paid at the clocks 3 and 5, and the third falls due at 7. -/
theorem timer_follows_clock_halt :
    (∃ events, Run FlatBus.Requests tickingStart events tickingIdle) ∧ tickingIdle.clock = 7 ∧
      tickingIdle.timerTicks = 2 ∧ tickingIdle.lastTimerTick = 2 * 2 ∧
      tickingIdle.bus.ticks = 2 ∧ tickingIdle.step.cpu.timerTicks = 7 / 2 := by
  have run : ∃ events, Run FlatBus.Requests tickingStart events tickingIdle := by
    rw [← steps_tickingStart]
    exact ⟨_, Run.refl.step.step.step⟩
  obtain ⟨events, run⟩ := run
  obtain ⟨⟨paid, _⟩, ticked, _, next⟩ := timer_follows_clock run
  have clock : tickingIdle.clock = 7 := by decide
  have ticks : tickingIdle.timerTicks = 2 := by decide
  rw [ticks] at paid ticked
  rw [clock] at next
  exact ⟨⟨_, run⟩, clock, ticks, paid, FlatBus.ticks_ticked ticked, next⟩

end RealMode
