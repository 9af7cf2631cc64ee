import RealMode.Proofs.Timer.Drift

/-!
The clock advances. Waiting takes time, entering a handler takes time, and so does every instruction
that has a meaning. An encoding without one raises an exception on the 80186. On the 8086 it is
passed over at no cost, and the step that does so takes time only if an interrupt follows. Apart
from such steps a run cannot go on without timer ticks.
-/

namespace RealMode

theorem Operand.cost_pos (rm : Operand) {register memory : Nat} (inRegister : 0 < register)
    (inMemory : 0 < memory) : 0 < rm.cost register memory := by
  cases rm with
  | reg i => exact inRegister
  | mem m => exact Nat.lt_of_lt_of_le inMemory (Nat.le_add_right _ _)

theorem StringOp.clocks_pos (op : StringOp) (repeated : Bool) : 0 < op.clocks repeated := by
  cases op <;> cases repeated <;> decide

namespace Cpu

theorem mulClocks_pos (signed : Bool) (w : Width) (rm : Operand) : 0 < mulClocks signed w rm := by
  cases signed <;> cases w <;> exact rm.cost_pos (by decide) (by decide)

theorem divClocks_pos (signed : Bool) (w : Width) (rm : Operand) : 0 < divClocks signed w rm := by
  cases signed <;> cases w <;> exact rm.cost_pos (by decide) (by decide)

theorem shiftClocks_pos (rm : Operand) (source : ShiftCount) (count : UInt8) :
    0 < shiftClocks rm source count := by
  have one : 0 < rm.cost 2 15 := rm.cost_pos (by decide) (by decide)
  have cl : 0 < rm.cost 8 20 := rm.cost_pos (by decide) (by decide)
  have immediate : 0 < rm.cost 5 8 := rm.cost_pos (by decide) (by decide)
  cases source <;> simp only [shiftClocks] <;> omega

theorem loopClocks_pos (taken : Bool) (test : LoopTest) : 0 < loopClocks taken test := by
  cases taken <;> cases test <;> decide

theorem enterClocks_pos (level : Nat) : 0 < enterClocks level := by
  rw [enterClocks.eq_def]
  split <;> omega

theorem portClocks_pos (port : PortNumber) : 0 < portClocks port := by
  cases port <;> exact Nat.succ_pos _

variable {β : Type} {c d : Cpu β} {clocks : Nat}

theorem clock_lt_spend (kept : c.clock ≤ d.clock) (pos : 0 < clocks) :
    c.clock < (d.spend clocks).clock :=
  Nat.lt_of_le_of_lt kept (Nat.lt_add_of_pos_right pos)

theorem clock_lt_loop (c : Cpu β) (test : LoopTest) (displacement : UInt8) :
    c.clock < (c.loop test displacement).clock := by
  rw [loop]
  dsimp only
  refine clock_lt_spend ?_ (loopClocks_pos _ test)
  split <;> exact Nat.le_refl _

theorem clock_lt_jumpIf (c : Cpu β) (taken : Bool) (displacement : UInt16) :
    c.clock < (c.jumpIf taken displacement).clock := by
  rw [jumpIf]
  split
  · exact clock_lt_spend (Nat.le_refl _) (by decide : 0 < 16)
  · exact clock_lt_spend (Nat.le_refl _) (by decide : 0 < 4)

variable [Bus β]

open Plain

/-- Time that an exception does not give back. -/
theorem clock_lt_raise (vector : UInt8) (pos : 0 < clocks) :
    c.clock < ((c.spend clocks).raise vector).cpu.clock :=
  Nat.lt_of_lt_of_le (clock_lt_spend (Nat.le_refl _) pos)
    ((refl (c.spend clocks)).raise vector).clock

theorem clock_lt_enterInterrupt (kept : c.clock ≤ d.clock) (target : UInt16 × UInt16)
    (mask : Flags → Flags) : c.clock < (d.enterInterrupt target mask).clock :=
  clock_lt_spend kept (by decide : 0 < 51)

theorem clock_lt_aluToRm (c : Cpu β) (op : AluOp) (w : Width) (rm : Operand) (reg : Fin 8) :
    c.clock < (c.aluToRm op w rm reg).clock := by
  rw [aluToRm]
  dsimp only
  split
  · exact clock_lt_spend (((refl c).setFlags _).store w _ _).clock
      (rm.cost_pos (by decide) (by decide))
  · exact clock_lt_spend (Nat.le_refl _) (rm.cost_pos (by decide) (by decide))

theorem clock_lt_aluToReg (c : Cpu β) (op : AluOp) (w : Width) (reg : Fin 8) (rm : Operand) :
    c.clock < (c.aluToReg op w reg rm).clock := by
  rw [aluToReg]
  dsimp only
  split <;> exact clock_lt_spend (Nat.le_refl _) (rm.cost_pos (by decide) (by decide))

theorem clock_lt_aluImm (c : Cpu β) (op : AluOp) (w : Width) (rm : Operand) (value : UInt16) :
    c.clock < (c.aluImm op w rm value).clock := by
  rw [aluImm]
  dsimp only
  split
  · exact clock_lt_spend (((refl c).setFlags _).store w _ _).clock
      (rm.cost_pos (by decide) (by decide))
  · exact clock_lt_spend (Nat.le_refl _) (rm.cost_pos (by decide) (by decide))

theorem clock_lt_aluAcc (c : Cpu β) (op : AluOp) (w : Width) (value : UInt16) :
    c.clock < (c.aluAcc op w value).clock := by
  rw [aluAcc]
  dsimp only
  split <;> exact clock_lt_spend (Nat.le_refl _) (by decide : 0 < 4)

theorem clock_lt_div (c : Cpu β) (signed : Bool) (w : Width) (rm : Operand) :
    c.clock < (c.div signed w rm).cpu.clock := by
  rw [div_eq]
  split
  · exact clock_lt_spend (Nat.le_refl _) (divClocks_pos signed w rm)
  · exact clock_lt_raise _ (divClocks_pos signed w rm)

theorem clock_lt_aam (c : Cpu β) (base : UInt8) : c.clock < (c.aam base).cpu.clock := by
  rw [aam]
  dsimp only
  split
  · exact clock_lt_spend (Nat.le_refl _) (by decide : 0 < 83)
  · exact clock_lt_raise _ (by decide)

theorem clock_lt_bound (c : Cpu β) (reg : Fin 8) (m : MemOperand) :
    c.clock < (c.bound reg m).cpu.clock := by
  rw [bound]
  dsimp only
  split
  · exact clock_lt_raise _ (by omega)
  · exact clock_lt_spend (Nat.le_refl _) (by omega)

theorem clock_lt_escape (c : Cpu β) (rm : Operand) : c.clock < (c.escape rm).cpu.clock := by
  rw [escape]
  split
  · exact clock_lt_spend (Nat.le_refl _) (rm.cost_pos (by decide) (by decide))
  · exact clock_lt_raise _ (rm.cost_pos (by decide) (by decide))

theorem clock_lt_string (c : Cpu β) (op : StringOp) (w : Width) :
    c.clock < (c.string op w).clock := by
  have element := ((refl c).stringElement op w).clock
  rw [string]
  split
  · exact clock_lt_spend element (op.clocks_pos false)
  · refine clock_lt_spend ?_ (op.clocks_pos true)
    rw [repeatElement]
    split
    · exact Nat.le_refl _
    · dsimp only
      split <;> exact element

theorem clock_lt_enter (c : Cpu β) (size : UInt16) (level : UInt8) :
    c.clock < (c.enter size level).clock := by
  rw [enter]
  dsimp only
  refine clock_lt_spend ?_ (enterClocks_pos _)
  split
  · exact Nat.le_refl _
  · exact ((c.plain_copyDisplay _ ((refl c).push c.regs.bp)).push (c.push c.regs.bp).regs.sp).clock

theorem clock_lt_returnFromInterrupt (c : Cpu β) : c.clock < c.returnFromInterrupt.clock := by
  have popped : c.clock < c.popFrame.clock := clock_lt_spend (Nat.le_refl _) (by decide : 0 < 24)
  rcases c.returnFromInterrupt_cases with same | ⟨frame, outer, _, same⟩ <;> rw [same] <;>
    exact popped

/-- An instruction with a meaning takes time. An interrupt that it raises does so as well, where it
has a handler. -/
theorem clock_lt_exec (c : Cpu β) {i : Instr} (known : i ≠ .unknown)
    (silent : c.raised? i = none) : c.clock < (c.exec i).cpu.clock := by
  cases i with
  | unknown => exact absurd rfl known
  | int3 | int => cases silent
  | aluToRm op w rm reg => exact c.clock_lt_aluToRm op w rm reg
  | aluToReg op w reg rm => exact c.clock_lt_aluToReg op w reg rm
  | aluImm op w rm value => exact c.clock_lt_aluImm op w rm value
  | aluAcc op w value => exact c.clock_lt_aluAcc op w value
  | div signed w rm => exact c.clock_lt_div signed w rm
  | aam base => exact c.clock_lt_aam base
  | bound reg m => exact c.clock_lt_bound reg m
  | escape rm => exact c.clock_lt_escape rm
  | string op w => exact c.clock_lt_string op w
  | iret => exact c.clock_lt_returnFromInterrupt
  | into =>
      rw [exec, into_of_silent silent]
      exact clock_lt_spend (Nat.le_refl _) (by decide)
  | incReg | decReg => exact clock_lt_spend (Nat.le_refl _) (by decide : 0 < 2)
  | incRm w rm | decRm w rm | complement w rm | negate w rm =>
      exact clock_lt_spend ((refl c).modify w _ _).clock (rm.cost_pos (by decide) (by decide))
  | shift op w rm source =>
      exact clock_lt_spend ((refl c).modify w _ _).clock (shiftClocks_pos rm source _)
  | movToRm w rm | movImm w rm =>
      exact clock_lt_spend ((refl c).store w _ _).clock (rm.cost_pos (by decide) (by decide))
  | movFromSeg rm =>
      exact clock_lt_spend ((refl c).store .word _ _).clock (rm.cost_pos (by decide) (by decide))
  | xchgRm w rm reg =>
      exact clock_lt_spend (((refl c).setReg w reg _).store w _ _).clock
        (rm.cost_pos (by decide) (by decide))
  | popRm rm =>
      exact clock_lt_spend ((refl c).pop.store .word _ _).clock
        (rm.cost_pos (by decide) (by decide))
  | testReg w rm | testImm w rm | movToReg w reg rm | movToSeg seg rm | pushRm rm | jumpRm rm
  | callRm rm => exact clock_lt_spend (Nat.le_refl _) (rm.cost_pos (by decide) (by decide))
  | mul signed w rm => exact clock_lt_spend (Nat.le_refl _) (mulClocks_pos signed w rm)
  | pushAll => exact clock_lt_spend ((refl c).foldl Plain.push _).clock (by decide)
  | popAll =>
      have lower := (refl c).foldl Plain.popInto [.di, .si, .bp]
      exact clock_lt_spend ((lower.release 2).foldl Plain.popInto _).clock (by decide)
  | enter size level => exact c.clock_lt_enter size level
  | jumpIf code displacement => exact c.clock_lt_jumpIf _ displacement
  | jumpIfCxZero displacement => exact Nat.lt_add_right 2 (c.clock_lt_jumpIf _ displacement)
  | loop test displacement => exact c.clock_lt_loop test displacement
  | ret arguments | retFar arguments =>
      cases arguments <;> exact clock_lt_spend (Nat.le_refl _) (by decide)
  | input w port | output w port => exact clock_lt_spend (Nat.le_refl _) (portClocks_pos port)
  | mulImm | lea | loadFar | jumpFarMem | callFarMem =>
      exact clock_lt_spend (Nat.le_refl _) (by omega)
  | testAcc | decimal | aad | cbw | cwd | salc | movRegImm | movAccFrom | movAccTo | xchgAcc | nop
  | xlat | lahf | sahf | pushReg | popReg | pushSeg | popSeg | pushImm | pushFlags | popFlags | leave
  | jump | jumpFar | call | callFar | flag | hlt | wait | segmentOverride | repeatPrefix | lock =>
      exact clock_lt_spend (Nat.le_refl _) (by decide)

/-- The 8086 passes over an encoding without a meaning, and no interrupt follows. -/
structure Timeless (c : Cpu β) : Prop where
  running : c.halted = false
  variant : c.config.variant = .i8086
  unknown : c.syncTimer.fetch.instr = .unknown
  uninterrupted : c.stepEvents = []

theorem Polled.clock (polled : Polled c d) : d.clock = c.clock := by
  cases polled <;> rfl

section

variable {armed : Bool} {events : List (Event β)} {o : Outcome β}

theorem Boundary.clock_le (between : Boundary c armed events o) : c.clock ≤ o.cpu.clock :=
  ((Work.refl.boundary between).unpaid Eq).clock

theorem Boundary.clock_of_uninterrupted (between : Boundary c armed events (.ok d))
    (uninterrupted : events = []) : d.clock = c.clock := by
  cases between with
  | nothing polled => exact polled.clock
  | trap | accepted => cases uninterrupted

theorem Boundary.clock_lt (between : Boundary c armed events (.ok d))
    (interrupted : events ≠ []) : c.clock < d.clock := by
  cases between with
  | nothing => exact absurd rfl interrupted
  | trap polled => exact clock_lt_enterInterrupt (Nat.le_of_eq polled.clock.symm) _ _
  | accepted => exact clock_lt_spend (Nat.le_refl _) (by decide : 0 < 51)

/-- Only what has no meaning can be executed in no time. -/
theorem Execution.clock_lt {i : Instr} (executed : Execution c i events (.ok d))
    (timed : i = .unknown → c.config.variant ≠ .i8086) : c.clock < d.clock := by
  cases executed with
  | returns => exact c.clock_lt_returnFromInterrupt
  | works _ silent done =>
      have known : i ≠ .unknown := by
        rintro rfl
        exact timed rfl (variant_of_unknown silent)
      have later := c.clock_lt_exec known silent
      rwa [done] at later
  | raises =>
      exact Nat.lt_add_right _ (clock_lt_enterInterrupt (Nat.le_add_right _ _) _ _)

theorem Execution.of_unknown (executed : Execution c .unknown events (.ok d))
    (variant : c.config.variant = .i8086) : events = [] ∧ d = c := by
  cases executed with
  | returns isReturn => cases isReturn
  | works _ _ done =>
      rw [exec, unknown_of_8086 variant] at done
      cases done
      exact ⟨rfl, rfl⟩
  | raises raised =>
      obtain ⟨on80186, _⟩ := Option.ite_none_right_eq_some.1 raised
      rw [variant] at on80186
      cases on80186

end

theorem clock_step_of_timeless (timeless : c.Timeless) (done : c.step = .ok d) :
    d.clock = c.clock := by
  have stepped := c.stepped
  have uninterrupted := timeless.uninterrupted
  rw [done] at stepped
  generalize c.stepEvents = events at stepped uninterrupted
  cases stepped with
  | idle halted =>
      rw [timeless.running] at halted
      cases halted
  | cycle _ _ executed between =>
      rw [timeless.unknown] at executed
      obtain ⟨-, rfl⟩ := executed.of_unknown timeless.variant
      exact between.clock_of_uninterrupted (List.append_eq_nil_iff.1 uninterrupted).2

theorem clock_lt_step (timed : ¬ c.Timeless) (done : c.step = .ok d) : c.clock < d.clock := by
  have stepped := c.stepped
  rw [done] at stepped
  generalize events : c.stepEvents = all at stepped
  cases stepped with
  | idle _ between =>
      exact Nat.lt_of_lt_of_le (clock_lt_spend (Nat.le_refl c.syncTimer.clock)
        c.syncTimer.config.timerRatio_pos) between.clock_le
  | cycle running _ executed between =>
      by_cases passedOver : c.syncTimer.fetch.instr = .unknown ∧ c.config.variant = .i8086
      · rw [passedOver.1] at executed
        obtain ⟨rfl, rfl⟩ := executed.of_unknown passedOver.2
        have interrupted : c.stepEvents ≠ [] := fun uninterrupted =>
          timed ⟨running, passedOver.2, passedOver.1, uninterrupted⟩
        rw [events] at interrupted
        exact between.clock_lt interrupted
      · have later := executed.clock_lt fun unknown variant => passedOver ⟨unknown, variant⟩
        exact Nat.lt_of_lt_of_le later between.clock_le

end Cpu

variable {β : Type} [Bus β]

/-- A run with so many steps that are completed and not timeless. Others may come between them, and
so may acts of the host. -/
inductive Lasting (host : β → β → Prop) (start : Cpu β) : Nat → Cpu β → Prop
  | refl : Lasting host start 0 start
  | step {n : Nat} {c d : Cpu β} (h : Lasting host start n c) (timed : ¬ c.Timeless)
      (done : c.step = .ok d) : Lasting host start (n + 1) d
  | other {n : Nat} {c : Cpu β} (h : Lasting host start n c) : Lasting host start n c.step.cpu
  | act {n : Nat} {c : Cpu β} (h : Lasting host start n c) {bus : β} (act : host c.bus bus) :
      Lasting host start n { c with bus }

/-- What such a run amounts to. -/
structure Lasted (host : β → β → Prop) (start : Cpu β) (n : Nat) (c : Cpu β) : Prop where
  config : c.config = start.config
  onTime : c.OnTime
  clock : start.clock + n ≤ c.clock
  ticks : start.timerTicks ≤ c.timerTicks
  bus : Bus.Ticked host start.bus (c.timerTicks - start.timerTicks) c.bus

namespace Lasted

variable {host : β → β → Prop} {start c : Cpu β} {n : Nat}

theorem step (h : Lasted host start n c) : Lasted host start n c.step.cpu := by
  have work := c.unpaid_step host
  have paid : c.step.cpu.timerTicks = c.timerTicks + c.ticksOwed := work.timerTicks
  have earlier := h.ticks
  refine ⟨work.config.trans h.config, h.onTime.syncTimer.unpaid work,
    Nat.le_trans h.clock work.clock, by omega, ?_⟩
  have ticked := (h.bus.ticks c.ticksOwed).trans work.bus
  rwa [Nat.add_zero, ← Nat.sub_add_comm earlier, ← paid] at ticked

/-- Once all is paid that is owed, the ticks of the run make up for its steps. -/
theorem ticks_step (h : Lasted host start n c) (onTime : start.OnTime) :
    n / start.config.timerRatio ≤ c.step.cpu.timerTicks - start.timerTicks := by
  have paid : c.step.cpu.timerTicks = c.clock / start.config.timerRatio := by
    rw [(c.unpaid_step host).timerTicks, h.onTime.timerTicks_syncTimer, h.config]
  have earned : start.config.timerRatio * start.timerTicks + n ≤ c.clock := by
    have before := onTime.earned
    rw [onTime.paid] at before
    exact Nat.le_trans (Nat.add_le_add_right before n) h.clock
  have all := Nat.div_le_div_right (c := start.config.timerRatio) earned
  rw [Nat.mul_add_div start.config.timerRatio_pos, ← paid] at all
  omega

end Lasted

theorem Lasting.lasted {host : β → β → Prop} {start c : Cpu β} {n : Nat}
    (run : Lasting host start n c) (onTime : start.OnTime) : Lasted host start n c := by
  induction run with
  | refl =>
      refine ⟨rfl, onTime, Nat.le_refl _, Nat.le_refl _, ?_⟩
      rw [Nat.sub_self]
      exact .refl
  | step _ timed done ih =>
      have later := Cpu.clock_lt_step timed done
      have next := ih.step
      rw [done] at next
      exact { next with clock := Nat.lt_of_le_of_lt ih.clock later }
  | other _ ih => exact ih.step
  | act _ act ih =>
      exact ⟨ih.config, ⟨ih.onTime.paid, ih.onTime.earned⟩, ih.clock, ih.ticks, ih.bus.act act⟩

/-- A completed step advances the clock unless it is timeless, and all others together pay for the
ticks of the timer. -/
theorem time_advances {host : β → β → Prop} {start c : Cpu β} {n : Nat}
    (run : Lasting host start n c) :
    (∀ d, c.step = .ok d → (c.clock < d.clock ↔ ¬ c.Timeless)) ∧
      (start.OnTime → start.clock + n ≤ c.clock ∧
        ∃ ticks, n / start.config.timerRatio ≤ ticks ∧
          Bus.Ticked host start.bus ticks c.step.cpu.bus) := by
  constructor
  · intro d done
    constructor
    · intro later timeless
      exact absurd (Cpu.clock_step_of_timeless timeless done) (Nat.ne_of_gt later)
    · intro timed
      exact Cpu.clock_lt_step timed done
  · intro onTime
    have lasted := run.lasted onTime
    exact ⟨lasted.clock, _, lasted.ticks_step onTime, lasted.step.bus⟩

theorem onTime_tickingStart : tickingStart.OnTime :=
  ⟨rfl, Nat.le_refl 0⟩

/-- Three steps, the last of which only waits. -/
theorem time_advances_halt :
    Lasting FlatBus.Requests tickingStart 3 tickingIdle ∧ tickingStart.OnTime ∧
      tickingStart.clock + 3 ≤ tickingIdle.clock ∧ 3 / 2 ≤ tickingIdle.step.cpu.bus.ticks := by
  have first : ¬ tickingStart.Timeless := fun timeless => by
    have stands : tickingStart.syncTimer.Stands .nop := by decide
    have unknown := timeless.unknown
    rw [Cpu.fetch_of_stands stands] at unknown
    cases unknown
  have second : ¬ tickingRunning.Timeless := fun timeless => by
    have stands : tickingRunning.syncTimer.Stands .hlt := by decide
    have unknown := timeless.unknown
    rw [Cpu.fetch_of_stands stands] at unknown
    cases unknown
  have third : ¬ tickingHalted.Timeless := fun timeless => by cases timeless.running
  have run : Lasting FlatBus.Requests tickingStart 3 tickingIdle :=
    ((Lasting.refl.step first step_tickingStart).step second step_tickingRunning).step third
      step_tickingHalted
  obtain ⟨clock, ticks, enough, ticked⟩ := (time_advances run).2 onTime_tickingStart
  have counted : tickingIdle.step.cpu.bus.ticks = ticks :=
    (FlatBus.ticks_ticked ticked).trans (Nat.zero_add ticks)
  exact ⟨run, onTime_tickingStart, clock, by rwa [counted]⟩

namespace Cpu

/-- Memory holds nothing but FF FF, which is no instruction. -/
structure Blank (c : Cpu FlatBus) : Prop where
  running : c.halted = false
  variant : c.config.variant = .i8086
  interrupt : c.regs.flags.interrupt = false
  trap : c.regs.flags.trap = false
  paid : c.ticksOwed = 0
  filled : ∀ address, c.bus.memory.get address = 0xFF

theorem syncTimer_of_paid {c : Cpu β} (paid : c.ticksOwed = 0) : c.syncTimer = c := by
  rw [syncTimer, paid, Nat.zero_mul]
  rfl

theorem Blank.fetch {c : Cpu FlatBus} (h : c.Blank) : c.fetch = ⟨.unknown, 2⟩ := by
  have first : c.codeByte c.window 0 = 0xFF := (c.codeByte_window_zero).trans (h.filled _)
  have second : c.codeByte c.window 1 = 0xFF := (c.codeByte_window (by decide)).trans (h.filled _)
  have group : Opcode.on8086 0xFF = .stepWord := by decide
  have form : (ModRM.ofByte 0xFF).reg = 7 := by decide
  rw [Cpu.fetch, decode, h.variant, first, Opcode.ofByte, group, Opcode.decode,
    Opcode.decodeStepWord, Opcode.modRM, second, form]
  rfl

theorem Blank.step {c : Cpu FlatBus} (h : c.Blank) :
    c.step = .ok (c.setIp (c.regs.ip + 2)).retire := by
  have passedOver : c.fetched.exec .unknown = .ok c.fetched :=
    unknown_of_8086 (c := c.fetched) h.variant
  have advanced : c.advance = .ok (c.setIp (c.regs.ip + 2)).retire := by
    rw [advance_of_running h.running, h.fetch, passedOver, fetched, h.fetch]
    rfl
  rw [step_eq, syncTimer_of_paid h.paid, advanced, armed_of_running h.running, h.trap]
  exact betweenInstructions_of_off (c := (c.setIp (c.regs.ip + 2)).retire) h.interrupt false

theorem Blank.next {c : Cpu FlatBus} (h : c.Blank) : (c.setIp (c.regs.ip + 2)).retire.Blank :=
  ⟨h.running, h.variant, h.interrupt, h.trap, h.paid, h.filled⟩

/-- The 8086 runs through blank memory for ever, and the timer stands still. -/
theorem Blank.runFor {c : Cpu FlatBus} (h : c.Blank) (n : Nat) :
    ∃ d, c.runFor n = .ok d ∧ d.instructions = c.instructions + n ∧ d.clock = c.clock ∧
      d.bus = c.bus := by
  induction n generalizing c with
  | zero => exact ⟨c, rfl, rfl, rfl, rfl⟩
  | succ n ih =>
      obtain ⟨d, done, instructions, clock, bus⟩ := ih h.next
      have awake : ¬ c.stopped = true := by
        rw [stopped, h.running]
        exact Bool.false_ne_true
      refine ⟨d, ?_, ?_, clock, bus⟩
      · rw [Cpu.runFor, if_neg awake, h.step]
        exact done
      · rw [instructions]
        exact Nat.add_right_comm _ 1 n

end Cpu

/-- An 8086 at the start of blank memory. -/
def stalled : Cpu FlatBus where
  regs := { ip := 0 }
  bus := { memory := ⟨⟨Array.replicate memorySize 0xFF⟩, Array.size_replicate⟩ }
  config := .ofRatio .i8086 4 false

theorem blank_stalled : stalled.Blank where
  running := rfl
  variant := rfl
  interrupt := rfl
  trap := rfl
  paid := rfl
  filled _ := Array.getElem_replicate _

/-- A completed step at whose end the clock has not moved. -/
theorem clock_stalled :
    stalled.step = .ok (stalled.setIp 2).retire ∧
      (stalled.setIp 2).retire.clock = stalled.clock :=
  ⟨blank_stalled.step, rfl⟩

end RealMode
