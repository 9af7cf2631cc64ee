import RealMode.Proofs.Cpu.Fetch
import RealMode.Proofs.Interrupt.Waking
import RealMode.Proofs.Machine.History
import RealMode.Proofs.Timer.Drift

/-!
How a processor comes to be halted. In every history of a machine the steps of a halted processor
go back to one that has executed a halt instruction, and since then nothing but waits has been done.
What the host does in between does not matter, unless it makes the processor run again.
-/

namespace RealMode
namespace Cpu

variable {β : Type} [Bus β] {c d : Cpu β}

theorem OnTime.step (h : c.OnTime) : c.step.cpu.OnTime :=
  h.syncTimer.unpaid (c.unpaid_step Eq)

/-- Between two instructions nobody halts, and only the trap touches a processor that stays
halted. It turns interrupts off. -/
theorem Boundary.asleep {armed : Bool} {events : List (Event β)} {o : Outcome β}
    (between : Boundary c armed events o) (asleep : o.cpu.halted = true) :
    c.halted = true ∧ (o.cpu.regs.flags.interrupt = true → ∃ bus, o.cpu = { c with bus }) := by
  cases between with
  | nothing polled | missingTrap polled =>
      obtain ⟨bus, _, rfl⟩ := polled.asked
      exact ⟨asleep, fun _ => ⟨bus, rfl⟩⟩
  | @trap d target polled =>
      obtain ⟨bus, _, rfl⟩ := polled.asked
      refine ⟨asleep, fun on => ?_⟩
      have regs := regs_enterInterrupt { c with bus } target Flags.maskInterrupts
      change (enterInterrupt _ _ _).regs.flags.interrupt = true at on
      rw [regs] at on
      cases on
  | accepted => cases asleep
  | refused => exact ⟨asleep, fun _ => ⟨_, rfl⟩⟩

/-- A step of a halted processor is a wait, with which an interrupt may be accepted. -/
theorem wait_cases (halted : c.halted = true) :
    ∃ bus, c.step.cpu = { c.syncTimer.spend c.config.timerRatio with bus } ∨
      ∃ irq target,
        c.step.cpu = { c.syncTimer.spend c.config.timerRatio with bus }.enterIrq irq target := by
  have all := c.stepped
  generalize c.stepEvents = events at all
  generalize c.step = o at all
  cases all with
  | idle _ between =>
      cases between with
      | nothing polled =>
          obtain ⟨bus, _, rfl⟩ := polled.asked
          exact ⟨bus, .inl rfl⟩
      | trap _ due | missingTrap _ due => cases due
      | accepted => exact ⟨_, .inr ⟨_, _, rfl⟩⟩
      | refused => exact ⟨_, .inl rfl⟩
  | cycle running | broken running =>
      rw [halted] at running
      cases running

theorem step_of_asleep (halted : c.halted = true) (asleep : c.step.cpu.halted = true) :
    ∃ bus, c.step.cpu = { c.syncTimer.spend c.config.timerRatio with bus } := by
  obtain ⟨bus, waited | ⟨irq, target, woken⟩⟩ := wait_cases halted
  · exact ⟨bus, waited⟩
  · rw [woken] at asleep
    cases asleep

/-- Whatever comes of a wait, no instruction is executed. -/
theorem instructions_of_halted (halted : c.halted = true) :
    c.step.cpu.instructions = c.instructions := by
  obtain ⟨bus, waited | ⟨irq, target, woken⟩⟩ := wait_cases halted
  · rw [waited]
    rfl
  · rw [woken]
    rfl

/-- After a wait one tick is due. -/
theorem OnTime.ticksOwed_of_asleep (h : c.OnTime) (halted : c.halted = true)
    (asleep : c.step.cpu.halted = true) : c.step.cpu.ticksOwed = 1 := by
  obtain ⟨bus, waited⟩ := step_of_asleep halted asleep
  have earned : c.syncTimer.lastTimerTick ≤ c.clock := h.syncTimer.earned
  have rest : c.clock - c.syncTimer.lastTimerTick < c.config.timerRatio := h.clock_syncTimer
  have due : c.clock + c.config.timerRatio - c.syncTimer.lastTimerTick =
      c.clock - c.syncTimer.lastTimerTick + c.config.timerRatio := by omega
  rw [waited]
  change (c.clock + c.config.timerRatio - c.syncTimer.lastTimerTick) / c.config.timerRatio = 1
  rw [due, Nat.add_div_right _ c.config.timerRatio_pos, Nat.div_eq_of_lt rest]

/-- A running processor halts behind a halt instruction. With interrupts still on, nothing else has
happened to its registers. -/
theorem hlt_of_asleep (running : c.halted = false) (asleep : c.step.cpu.halted = true) :
    c.syncTimer.fetch.instr = .hlt ∧ (c.step.cpu.regs.flags.interrupt = true →
      c.step.cpu.regs = { c.regs with ip := c.regs.ip + 1 }) := by
  have all := c.stepped
  generalize c.stepEvents = events at all
  generalize c.step = o at all asleep
  cases all with
  | idle halted =>
      rw [running] at halted
      cases halted
  | broken =>
      change c.halted = true at asleep
      rw [running] at asleep
      cases asleep
  | @cycle _ _ d _ _ done _ between =>
      obtain ⟨halted, kept⟩ := between.asleep asleep
      have isHalt := (halted_dispatch (c := c.syncTimer) running done).1 halted
      refine ⟨isHalt, fun on => ?_⟩
      obtain ⟨bus, same⟩ := kept on
      change c.syncTimer.fetched.exec c.syncTimer.fetch.instr = .ok d at done
      rw [isHalt] at done
      cases done
      have ip : c.syncTimer.fetched.regs.ip = c.regs.ip + 1 :=
        ip_fetched_of_isAlone (by rw [isHalt]; rfl)
      rw [same, ← ip]
      rfl

end Cpu

namespace Machine

variable {δ : Type} [PortDevice δ] {steps waits : List (Cpu (PcBus δ))} {c origin : Cpu (PcBus δ)}

/-- The last steps of a history that has left a processor halted: a halt instruction and since then
only waits. -/
structure Halt (steps : List (Cpu (PcBus δ))) (c origin : Cpu (PcBus δ))
    (waits : List (Cpu (PcBus δ))) : Prop where
  last : ∃ before, steps = before ++ origin :: waits
  running : origin.halted = false
  instr : origin.syncTimer.fetch.instr = .hlt
  halted : ∀ w ∈ waits, w.halted = true
  /-- It stands behind the halt instruction. If interrupts are off it may have taken a trap there. -/
  regs : c.regs.flags.interrupt = true → c.regs = { origin.regs with ip := origin.regs.ip + 1 }
  owed : waits ≠ [] → c.ticksOwed = 1

/-- What a history has left is on time and, if it is halted, has come to that by a halt. -/
structure Accounted (steps : List (Cpu (PcBus δ))) (c : Cpu (PcBus δ)) : Prop where
  onTime : c.OnTime
  halt : c.halted = true → ∃ origin waits, Halt steps c origin waits

theorem Halt.withBus (h : Halt steps c origin waits) (bus : PcBus δ) :
    Halt steps { c with bus } origin waits :=
  ⟨h.last, h.running, h.instr, h.halted, h.regs, h.owed⟩

/-- One more wait belongs to the same halt. -/
theorem Halt.wait (h : Halt steps c origin waits) (onTime : c.OnTime) (halted : c.halted = true)
    (asleep : c.step.cpu.halted = true) :
    Halt (steps ++ [c]) c.step.cpu origin (waits ++ [c]) where
  last := by
    obtain ⟨before, same⟩ := h.last
    exact ⟨before, by rw [same, List.append_assoc, List.cons_append]⟩
  running := h.running
  instr := h.instr
  halted w member := by
    rcases List.mem_append.1 member with earlier | last
    · exact h.halted w earlier
    · rwa [List.mem_singleton.1 last]
  regs on := by
    obtain ⟨bus, waited⟩ := Cpu.step_of_asleep halted asleep
    rw [waited] at on ⊢
    exact h.regs on
  owed _ := onTime.ticksOwed_of_asleep halted asleep

namespace Accounted

theorem of_running (onTime : c.OnTime) (running : c.halted = false) : Accounted steps c := by
  refine ⟨onTime, fun halted => ?_⟩
  rw [running] at halted
  cases halted

theorem withBus (h : Accounted steps c) (bus : PcBus δ) : Accounted steps { c with bus } where
  onTime := ⟨h.onTime.paid, h.onTime.earned⟩
  halt halted := by
    obtain ⟨origin, waits, halt⟩ := h.halt halted
    exact ⟨origin, waits, halt.withBus bus⟩

theorem step (h : Accounted steps c) : Accounted (steps ++ [c]) c.step.cpu where
  onTime := h.onTime.step
  halt asleep := by
    cases halted : c.halted with
    | true =>
        obtain ⟨origin, waits, halt⟩ := h.halt halted
        exact ⟨origin, waits ++ [c], halt.wait h.onTime halted asleep⟩
    | false =>
        obtain ⟨isHalt, regs⟩ := Cpu.hlt_of_asleep halted asleep
        exact ⟨c, [], ⟨steps, rfl⟩, halted, isHalt, fun _ none => absurd none List.not_mem_nil, regs,
          fun some => absurd rfl some⟩

theorem run (h : Accounted steps c) (stop : Bool) (n : Nat) :
    Accounted (steps ++ runStarts stop c n) (runSteps stop c n).cpu := by
  induction n generalizing steps c with
  | zero =>
      rw [runStarts, List.append_nil]
      exact h
  | succ n ih =>
      rw [runStarts, runSteps_succ]
      by_cases ends : (stop || c.stopped) = true
      · rw [if_pos ends, if_pos ends, List.append_nil]
        exact h
      · rw [if_neg ends, if_neg ends, List.append_cons]
        have next := h.step
        generalize c.step = o at next
        rcases o with ⟨d, missing⟩
        cases missing with
        | none => exact ih next
        | some _ =>
            rw [Option.isSome_some, if_pos rfl, List.append_nil]
            exact next

theorem perform {m : Machine δ} (h : Accounted steps m.cpu) (op : Op δ) :
    Accounted (steps ++ m.starts op) (m.perform op).cpu := by
  by_cases installs : op.installs = true
  · obtain ⟨_, _, _, same⟩ := perform_of_installs (m := m) installs
    have none : m.starts op = [] := by
      cases op with
      | step | run => cases installs
      | _ => rfl
    rw [same, none, List.append_nil]
    exact h.withBus _
  · cases op with
    | attach | loadProgram | loadBootstrapped | loadBios => exact absurd rfl installs
    | step => exact h.step
    | run mode => exact h.run m.stop (budget mode)
    | raise line =>
        change Accounted (steps ++ []) _
        rw [List.append_nil]
        exact h.withBus _
    | setStop stop =>
        change Accounted (steps ++ []) _
        rw [List.append_nil]
        exact h
    | setEntry => exact .of_running ⟨h.onTime.paid, h.onTime.earned⟩ rfl
    | reset => exact .of_running ⟨(Nat.mul_zero _).symm, Nat.le_refl 0⟩ rfl

theorem foldl_perform {m : Machine δ} (h : Accounted steps m.cpu) (ops : List (Op δ)) :
    Accounted (steps ++ m.stepStarts ops) (ops.foldl Machine.perform m).cpu := by
  induction ops generalizing steps m with
  | nil =>
      rw [stepStarts, List.append_nil]
      exact h
  | cons op ops ih =>
      rw [stepStarts, ← List.append_assoc]
      exact ih (h.perform op)

end Accounted

/-- The steps of every history account for its time and for its last halt. -/
theorem accounted_after (config : Config) (ops : List (Op δ)) :
    Accounted ((ofConfig config).stepStarts ops) (after config ops).cpu := by
  have powerOn : Accounted [] (ofConfig config : Machine δ).cpu :=
    .of_running ⟨(Nat.mul_zero _).symm, Nat.le_refl 0⟩ rfl
  exact powerOn.foldl_perform ops

end Machine
end RealMode
