import RealMode.Proofs.Machine.Waiting

/-!
The run of a machine and that of its processor. With the stop flag clear they make the same steps as
long as both look first whether the processor has stopped. The processor does not look in single
steps: there a stopped one, which nothing can wake, makes one more wait, and the machine makes none.
-/

namespace RealMode

theorem Cpu.runFor_succ {β : Type} [Bus β] (c : Cpu β) (n : Nat) :
    c.runFor (n + 1) = if c.stopped then .ok c else c.step.andThen (·.runFor n) := by
  rw [runFor]
  rcases c.step with ⟨d, missing⟩
  cases missing <;> rfl

namespace Machine

variable {δ : Type} [PortDevice δ] {m : Machine δ}

/-- The machine after a run of its processor. -/
def runCpu (m : Machine δ) (mode : RunMode) : RunResult × Machine δ :=
  let o := m.cpu.runMode mode
  (o.result, { m with cpu := o.cpu })

theorem runSteps_eq_runFor (c : Cpu (PcBus δ)) (n : Nat) : runSteps false c n = c.runFor n := by
  induction n generalizing c with
  | zero => rfl
  | succ n ih =>
      have later : (runSteps false · n) = (Cpu.runFor · n) := funext ih
      rw [runSteps_succ, Cpu.runFor_succ, Bool.false_or, later]

theorem run_eq_runFor (unasked : m.stop = false) (mode : RunMode) :
    m.run mode =
      ((m.cpu.runFor (budget mode)).result, { m with cpu := (m.cpu.runFor (budget mode)).cpu }) := by
  rw [run, unasked, runSteps_eq_runFor]

/-- A single step is the first of a run, unless the processor has stopped. -/
theorem runFor_one {c : Cpu (PcBus δ)} (going : c.stopped = false) : c.runFor 1 = c.step := by
  rw [Cpu.runFor_succ, going]
  rcases c.step with ⟨d, missing⟩
  cases missing <;> rfl

theorem run_of_stopped (unasked : m.stop = false) (stopped : m.cpu.stopped = true) :
    m.run .step = (.ok m.cpu.stats, m) := by
  have none : m.cpu.runFor 1 = .ok m.cpu := by
    rw [Cpu.runFor_succ, stopped]
    rfl
  rw [run_eq_runFor unasked, budget, none]
  rfl

/-- The wait of a processor that is stepped by itself. -/
theorem runCpu_of_stopped (stopped : m.cpu.stopped = true) :
    m.runCpu .step =
      (.ok ⟨m.cpu.clock + m.cpu.config.timerRatio, m.cpu.instructions,
          m.cpu.timerTicks + m.cpu.ticksOwed⟩,
        { m with cpu := m.cpu.syncTimer.spend m.cpu.config.timerRatio }) := by
  rw [runCpu, Cpu.runMode, Cpu.step_of_stopped stopped]
  rfl

theorem run_ne_runCpu (unasked : m.stop = false) (stopped : m.cpu.stopped = true) :
    m.run .step ≠ m.runCpu .step := by
  rw [run_of_stopped unasked stopped, runCpu_of_stopped stopped]
  intro same
  have clock := congrArg (fun answer => answer.2.cpu.clock) same
  have wait := m.cpu.config.timerRatio_pos
  change m.cpu.clock = m.cpu.clock + m.cpu.config.timerRatio at clock
  omega

/-- The two runs agree in every mode, be it that the processor runs, waits, stops on the way or fails.
A single step of a stopped processor alone is none for the machine and a wait for the processor. -/
theorem run_agrees (unasked : m.stop = false) :
    (∀ mode, m.run mode = m.runCpu mode ↔ (mode = .step → m.cpu.stopped = false)) ∧
      (m.cpu.stopped = true → m.run .step = (.ok m.cpu.stats, m) ∧
        m.runCpu .step =
          (.ok ⟨m.cpu.clock + m.cpu.config.timerRatio, m.cpu.instructions,
              m.cpu.timerTicks + m.cpu.ticksOwed⟩,
            { m with cpu := m.cpu.syncTimer.spend m.cpu.config.timerRatio })) := by
  constructor
  · intro mode
    cases mode with
    | run => exact ⟨fun _ => nofun, fun _ => run_eq_runFor unasked .run⟩
    | runFor n => exact ⟨fun _ => nofun, fun _ => run_eq_runFor unasked (.runFor n)⟩
    | step =>
        constructor
        · intro same _
          exact Bool.eq_false_iff.2 fun stopped => run_ne_runCpu unasked stopped same
        · intro going
          rw [run_eq_runFor unasked, budget, runFor_one (going rfl)]
          rfl
  · exact fun stopped => ⟨run_of_stopped unasked stopped, runCpu_of_stopped stopped⟩

/-- A machine whose processor has halted with interrupts off. -/
def stoppedMachine : Machine Peripheral where
  cpu := { bus := {}, config := .ofRatio .i8086 4 false, halted := true }

/-- The processor stepped by itself lets the time of a tick go by. -/
theorem run_agrees_stopped :
    stoppedMachine.stop = false ∧ stoppedMachine.cpu.stopped = true ∧
      stoppedMachine.run .step = (.ok ⟨0, 0, 0⟩, stoppedMachine) ∧
      (stoppedMachine.runCpu .step).1 = .ok ⟨4, 0, 0⟩ ∧
      ∀ n, stoppedMachine.run (.runFor n) = stoppedMachine.runCpu (.runFor n) := by
  have agrees := run_agrees (m := stoppedMachine) rfl
  obtain ⟨none, wait⟩ := agrees.2 rfl
  exact ⟨rfl, rfl, none, congrArg Prod.fst wait, fun n => (agrees.1 _).2 nofun⟩

/-- Not in all modes. -/
theorem run_differs :
    ¬ ∀ (m : Machine Peripheral) (mode : RunMode), m.stop = false →
      m.run mode = m.runCpu mode :=
  fun all => run_ne_runCpu rfl rfl (all stoppedMachine .step rfl)

end Machine
end RealMode
