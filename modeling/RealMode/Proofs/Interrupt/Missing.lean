import RealMode.Proofs.Cpu.Fetch
import RealMode.Proofs.Interrupt.StepCases

/-!
Missing handlers. A step breaks off in one of three places, and always before the entry has changed
anything: an instruction that raises an interrupt does nothing else, the trap comes when its
instruction is complete, and a refused request leaves the program alone.
-/

namespace RealMode

open MemoryBus (memory)

/-- The instructions that can enter a handler by themselves. -/
def Instr.mayRaise : Instr → Bool
  | .unknown | .div _ _ _ | .aam _ | .bound _ _ | .int3 | .int _ | .into | .escape _ => true
  | _ => false

namespace Cpu

variable {β : Type} [Bus β]

theorem mayRaise_of_raised {c : Cpu β} {i : Instr} {r : Raised} (raised : c.raised? i = some r) :
    i.mayRaise = true := by
  cases i with
  | unknown | div | aam | bound | int3 | int | into | escape => rfl
  | _ => cases raised

theorem kept_returnFromInterrupt (c : Cpu β) :
    c.returnFromInterrupt.config = c.config ∧
      c.returnFromInterrupt.instructions = c.instructions := by
  have popped := c.plain_popFrame
  rcases c.returnFromInterrupt_cases with same | ⟨_, _, _, same⟩
  · rw [same]
    exact ⟨popped.config, popped.instructions⟩
  · rw [same]
    exact ⟨popped.config, popped.instructions⟩

theorem Execution.kept {c d : Cpu β} {i : Instr} {events : List (Event β)}
    (h : Execution c i events (.ok d)) :
    d.config = c.config ∧ d.instructions = c.instructions := by
  cases h with
  | returns => exact c.kept_returnFromInterrupt
  | works notReturn _ done =>
      have steady := c.steady_exec notReturn
      rw [done] at steady
      exact ⟨steady.config, steady.instructions⟩
  | @raises r target =>
      have steady := (((Steady.refl c).spend r.before).enterInterrupt target id).spend r.after
      exact ⟨steady.config, steady.instructions⟩

/-- The vector of this interrupt is empty, and the processor does not accept that. -/
structure NoHandler (c : Cpu β) (vector : UInt8) (e : MissingHandler) : Prop where
  strict : c.config.strictVectors = true
  empty : Bus.readFar c.bus (vectorAddress vector) = (0, 0)
  vector : e.vector = vector

theorem NoHandler.of_error {c : Cpu β} {vector : UInt8} {e : MissingHandler}
    (missing : c.handler vector = .error e) : NoHandler c vector e := by
  rw [handler] at missing
  dsimp only at missing
  split at missing
  next isEmpty =>
    cases missing
    simp only [Bool.and_eq_true, beq_iff_eq] at isEmpty
    exact ⟨isEmpty.1.1, Prod.ext isEmpty.1.2 isEmpty.2, rfl⟩
  next => cases missing

variable [MemoryBus β]

theorem Polled.memory_eq {c d : Cpu β} (h : Polled c d) : memory d.bus = memory c.bus := by
  cases h with
  | off => rfl
  | idle _ out =>
      have asked := MemoryBus.pendingIrq c.bus
      rwa [out] at asked

/-- A step from `c` that ends in `d` because an instruction has raised an interrupt. All but the
timer ticks due and the fetch has been left undone. -/
structure BreaksDuring (c d : Cpu β) (e : MissingHandler) : Prop where
  running : c.halted = false
  origin : c.syncTimer.dispatch = ⟨d, some e⟩
  mayRaise : c.syncTimer.fetch.instr.mayRaise = true
  regs : d.regs = { c.regs with ip := c.regs.ip + c.syncTimer.fetch.length.toUInt16 }
  bus : d.bus = Bus.ticks c.bus c.ticksOwed
  memory : memory d.bus = memory c.bus
  prefixes : d.prefixes = c.prefixes
  loopBounds : d.loopBounds = c.loopBounds
  irqFrames : d.irqFrames = c.irqFrames
  halted : d.halted = c.halted
  instructions : d.instructions = c.instructions

/-- A step that ends in `d` because of the trap after an instruction that leads to `done`. Nothing
has been pushed. -/
structure BreaksAfter (c done d : Cpu β) (e : MissingHandler) : Prop where
  running : c.halted = false
  origin : c.syncTimer.dispatch = .ok done
  armed : c.regs.flags.trap = true
  vector : e.vector = Exception.singleStep.vector
  polled : Polled done.retire d
  regs : d.regs = done.regs
  memory : memory d.bus = memory done.bus
  instructions : d.instructions = c.instructions + 1

/-- A step that ends in `d` because a hardware interrupt is refused, after an instruction or a wait
that leads to `done`. -/
structure Refuses (c done d : Cpu β) (e : MissingHandler) : Prop where
  origin : c.syncTimer.advance = .ok done
  enabled : done.regs.flags.interrupt = true
  refused : ∃ irq bus, Bus.pendingIrq done.bus = (some irq, bus) ∧ e.vector = irq.vector ∧
    d = { done with bus := Bus.endOfInterrupt bus irq.line }

/-- What a break between instructions can be. -/
theorem Boundary.breaks {c d : Cpu β} {armed : Bool} {events : List (Event β)} {e : MissingHandler}
    (h : Boundary c armed events ⟨d, some e⟩) :
    c.config.strictVectors = true ∧ Bus.readFar d.bus (vectorAddress e.vector) = (0, 0) ∧
      ((Polled c d ∧ armed = true ∧ e.vector = Exception.singleStep.vector) ∨
        (c.regs.flags.interrupt = true ∧ ∃ irq bus, Bus.pendingIrq c.bus = (some irq, bus) ∧
          e.vector = irq.vector ∧ d = { c with bus := Bus.endOfInterrupt bus irq.line })) := by
  cases h with
  | missingTrap polled due missing =>
      have none := NoHandler.of_error missing
      have config : d.config = c.config := by cases polled <;> rfl
      refine ⟨by rw [← config, none.strict], by rw [none.vector, none.empty], .inl ⟨polled, ?_,
        none.vector⟩⟩
      exact (Bool.and_eq_true_iff.1 due).1
  | @refused irq bus _ on out missing =>
      have none := NoHandler.of_error missing
      have same : memory (Bus.endOfInterrupt bus irq.line) = memory bus :=
        MemoryBus.endOfInterrupt _ _
      refine ⟨none.strict, ?_, .inr ⟨on, irq, bus, out, none.vector, rfl⟩⟩
      rw [none.vector, ← none.empty]
      exact MemoryBus.readFar_congr same _

end Cpu

open Cpu

variable {β : Type} [Bus β] [MemoryBus β]

/-- A step fails only for want of a handler, and then leaves no entry half done: an instruction has
had no effect at all, or its whole effect and no more. -/
theorem missing_handler_aborts {c d : Cpu β} {e : MissingHandler} (failed : c.step = ⟨d, some e⟩) :
    c.config.strictVectors = true ∧ Bus.readFar d.bus (vectorAddress e.vector) = (0, 0) ∧
      (BreaksDuring c d e ∨ (∃ done, BreaksAfter c done d e) ∨ ∃ done, Refuses c done d e) := by
  have all := c.stepped
  rw [failed] at all
  generalize c.stepEvents = events at all
  cases all with
  | idle halted between =>
      obtain ⟨strict, empty, ⟨_, due, _⟩ | ⟨on, refused⟩⟩ := between.breaks
      · cases due
      · exact ⟨strict, empty, .inr (.inr ⟨_, advance_of_halted halted, on, refused⟩)⟩
  | @cycle _ _ done _ running origin executed between =>
      obtain ⟨strict, empty, ⟨polled, armed, vector⟩ | ⟨on, refused⟩⟩ := between.breaks
      · have config : done.retire.config = c.config := executed.kept.1
        have counted : d.instructions = done.instructions + 1 := by cases polled <;> rfl
        have regs : d.regs = done.regs := by cases polled <;> rfl
        refine ⟨by rw [← config, strict], empty, .inr (.inl ⟨done, ?_⟩)⟩
        exact ⟨running, origin, armed, vector, polled, regs, polled.memory_eq,
          counted.trans (congrArg (· + 1) executed.kept.2)⟩
      · have config : done.retire.config = c.config := executed.kept.1
        have advanced : c.syncTimer.advance = .ok done.retire := by
          rw [advance_of_running (c := c.syncTimer) running]
          change c.syncTimer.dispatch.andThen _ = _
          rw [origin]
          rfl
        exact ⟨by rw [← config, strict], empty, .inr (.inr ⟨_, advanced, on, refused⟩)⟩
  | broken running origin raised missing =>
      have none := NoHandler.of_error missing
      refine ⟨none.strict, by rw [none.vector, ← none.empty]; rfl, .inl ?_⟩
      exact ⟨running, origin, mayRaise_of_raised raised, rfl, rfl, MemoryBus.ticks _ _, rfl, rfl, rfl,
        rfl, rfl⟩

/-- A breakpoint without a handler. -/
def unhandledStart : Cpu FlatBus where
  regs := { ip := 0x10 }
  bus := { memory := Memory.zero.set 0x10 0xCC }
  config := .ofRatio .i8086 4 true

def unhandledEnd : Cpu FlatBus :=
  (unhandledStart.syncTimer.setIp 0x11).spend 0

theorem dispatch_unhandledStart : unhandledStart.syncTimer.dispatch = ⟨unhandledEnd, some ⟨3⟩⟩ := by
  have stands : unhandledStart.syncTimer.Stands .int3 := by decide
  have raised : (unhandledStart.syncTimer.setIp 0x11).raised? .int3 = some ⟨3, 0, 1⟩ := rfl
  have empty : Bus.readFar unhandledEnd.bus (vectorAddress 3) = (0, 0) := by decide
  have missing : unhandledEnd.raise 3 = ⟨unhandledEnd, some ⟨3⟩⟩ :=
    raise_of_missing (handler_of_empty rfl empty)
  rw [dispatch, fetch_of_stands stands]
  change (unhandledStart.syncTimer.setIp 0x11).exec .int3 = _
  rw [exec_of_raised raised]
  exact congrArg (fun o : Outcome FlatBus => o.andThen fun c => .ok (c.spend 1)) missing

theorem advance_unhandledStart : unhandledStart.syncTimer.advance = ⟨unhandledEnd, some ⟨3⟩⟩ := by
  have running : unhandledStart.syncTimer.halted = false := rfl
  rw [advance_of_running running]
  exact congrArg (fun o : Outcome FlatBus => o.andThen fun c => .ok c.retire)
    dispatch_unhandledStart

theorem step_unhandledStart : unhandledStart.step = ⟨unhandledEnd, some ⟨3⟩⟩ := by
  rw [step_eq, advance_unhandledStart]
  rfl

theorem missing_handler_aborts_breakpoint :
    unhandledStart.step = ⟨unhandledEnd, some ⟨3⟩⟩ ∧
      Bus.readFar unhandledEnd.bus (vectorAddress 3) = (0, 0) ∧
      BreaksDuring unhandledStart unhandledEnd ⟨3⟩ := by
  obtain ⟨_, empty, during | ⟨done, after⟩ | ⟨done, refuses⟩⟩ :=
    missing_handler_aborts step_unhandledStart
  · exact ⟨step_unhandledStart, empty, during⟩
  · have origin := after.origin
    rw [dispatch_unhandledStart] at origin
    cases origin
  · have origin := refuses.origin
    rw [advance_unhandledStart] at origin
    cases origin

end RealMode
