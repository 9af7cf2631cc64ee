import RealMode.Proofs.Bus.Ended
import RealMode.Proofs.Cpu.Acceptance
import RealMode.Proofs.Cpu.Fetch
import RealMode.Proofs.Interrupt.Frame
import RealMode.Proofs.String.Elements

/-!
Interrupts in the midst of a repeated string instruction. The host asks for them before any step, on
a schedule, and the run goes on until the instruction and all handlers are done. The only steps on
the way are those of the instruction and those of a handler that returns at once.
-/

namespace RealMode

def Cpu.request (c : Cpu FlatBus) (irqs : List PendingIrq) : Cpu FlatBus :=
  { c with bus := irqs.foldl FlatBus.requestIrq c.bus }

/-- About to do a repeated string instruction, with no interrupt about. -/
structure AtRepeatedString (c : Cpu FlatBus) (op : StringOp) (w : Width) (mode : RepeatMode) :
    Prop where
  stands : c.Stands (.string op w)
  rep : c.prefixes.rep = some mode
  running : c.halted = false
  interrupt : c.regs.flags.interrupt = true
  trap : c.regs.flags.trap = false
  irqQueue : c.bus.irqQueue = []
  irqFrames : c.irqFrames = []

/-- The instruction that `start` stands at is done, and so are all interrupts. -/
structure Over (start c : Cpu FlatBus) : Prop where
  cs : c.regs.cs = start.regs.cs
  ip : c.regs.ip = start.regs.ip + 1
  irqQueue : c.bus.irqQueue = []
  irqFrames : c.irqFrames = []

/-- So many steps take a processor to the first state that is over. Before each step the host makes
the next requests of its schedule. -/
inductive Finishes (start : Cpu FlatBus) :
    Cpu FlatBus → List (List PendingIrq) → Nat → Cpu FlatBus → Prop
  | done {c : Cpu FlatBus} {schedule : List (List PendingIrq)} (isOver : Over start c) :
      Finishes start c schedule 0 c
  | step {c d final : Cpu FlatBus} {schedule : List (List PendingIrq)} {n : Nat}
      (notYet : ¬ Over start c) (step : (c.request (schedule.headD [])).step = .ok d)
      (rest : Finishes start d schedule.tail n final) : Finishes start c schedule (n + 1) final

theorem Finishes.unique {start c d e : Cpu FlatBus} {schedule : List (List PendingIrq)} {m n : Nat}
    (h : Finishes start c schedule m d) (g : Finishes start c schedule n e) : m = n ∧ d = e := by
  induction h generalizing n with
  | done isOver =>
      cases g with
      | done => exact ⟨rfl, rfl⟩
      | step notYet => exact absurd isOver notYet
  | @step c next d schedule m notYet step rest ih =>
      cases g with
      | done isOver => exact absurd isOver notYet
      | @step c next' e schedule n _ step' rest' =>
          obtain rfl : next = next' := congrArg Outcome.cpu (step.symm.trans step')
          obtain ⟨rfl, same⟩ := ih rest'
          exact ⟨rfl, same⟩

/-- The states from which the steps of the instruction start if nobody asks for interrupts. -/
inductive Unfinished (start : Cpu FlatBus) : Cpu FlatBus → Prop
  | start : Unfinished start start
  | step {c d : Cpu FlatBus} (h : Unfinished start c) (step : c.step = .ok d)
      (notYet : ¬ Over start d) : Unfinished start d

def slotBytes (vector : UInt8) : List UInt32 :=
  wordBytes (vectorAddress vector) ++ wordBytes (vectorAddress vector + 2)

def handlerByte (b : FlatBus) (vector : UInt8) : UInt32 :=
  physical (Bus.readFar b (vectorAddress vector)).2 (Bus.readFar b (vectorAddress vector)).1

/-- A vector that is in use and points to a return. -/
structure ReturnsAtOnce (b : FlatBus) (vector : UInt8) : Prop where
  nonzero : Bus.readFar b (vectorAddress vector) ≠ (0, 0)
  handler : b.memory.get (handlerByte b vector) = 0xCF

/-- The bytes that interrupts during the instruction live on: its opcode, the vectors and the
handlers. -/
def fixedBytes (start : Cpu FlatBus) (irqs : List PendingIrq) : List UInt32 :=
  start.regs.codeAddress ::
    irqs.flatMap fun irq => handlerByte start.bus irq.vector :: slotBytes irq.vector

/-- The instruction and its interrupts keep out of each other's way. -/
structure Undisturbed (start : Cpu FlatBus) (op : StringOp) (w : Width) (irqs : List PendingIrq) :
    Prop where
  handlers : ∀ irq ∈ irqs, ReturnsAtOnce start.bus irq.vector
  ram : ∀ byte ∈ frameBytes start.regs.ss start.regs.sp, isRam byte
  apart : ∀ byte ∈ fixedBytes start irqs, byte ∉ frameBytes start.regs.ss start.regs.sp
  writes : ∀ c, Unfinished start c → c.regs.cx ≠ 0 → ∀ byte ∈ c.elementWrites op w,
    byte ∉ fixedBytes start irqs ∧ byte ∉ frameBytes start.regs.ss start.regs.sp
  reads : ∀ c, Unfinished start c → c.regs.cx ≠ 0 → ∀ byte ∈ c.elementReads op w,
    byte ∉ frameBytes start.regs.ss start.regs.sp

theorem wrapAddress_of_mem_wordBytes {address byte : UInt32} (h : byte ∈ wordBytes address) :
    wrapAddress byte = byte := by
  rcases mem_wordBytes.1 h with rfl | rfl <;> exact wrapAddress_wrapAddress _

theorem wrapAddress_of_mem_fixedBytes {start : Cpu FlatBus} {irqs : List PendingIrq} {byte : UInt32}
    (h : byte ∈ fixedBytes start irqs) : wrapAddress byte = byte := by
  rcases List.mem_cons.1 h with rfl | h
  · exact wrapAddress_physical _ _
  · obtain ⟨irq, _, member⟩ := List.mem_flatMap.1 h
    rcases List.mem_cons.1 member with rfl | member
    · exact wrapAddress_physical _ _
    · rcases List.mem_append.1 member with member | member
      · exact wrapAddress_of_mem_wordBytes member
      · exact wrapAddress_of_mem_wordBytes member

namespace Cpu

theorem bus_request (c : Cpu FlatBus) (irqs : List PendingIrq) :
    (c.request irqs).bus = { c.bus with irqQueue := c.bus.irqQueue ++ irqs } := by
  rw [request]
  induction irqs generalizing c with
  | nil => rw [List.append_nil]; rfl
  | cons irq irqs ih =>
      have next := ih { c with bus := c.bus.requestIrq irq }
      refine next.trans (congrArg (fun irqQueue => { c.bus with irqQueue }) ?_)
      exact List.append_assoc _ [irq] irqs

theorem irqQueue_request (c : Cpu FlatBus) (irqs : List PendingIrq) :
    (c.request irqs).bus.irqQueue = c.bus.irqQueue ++ irqs := by
  rw [bus_request]

theorem acknowledged_request (c : Cpu FlatBus) (irqs : List PendingIrq) :
    (c.request irqs).bus.acknowledged = c.bus.acknowledged := by
  rw [bus_request]

theorem memory_request (c : Cpu FlatBus) (irqs : List PendingIrq) :
    (c.request irqs).bus.memory = c.bus.memory := by
  rw [bus_request]

theorem memory_request_syncTimer (c : Cpu FlatBus) (irqs : List PendingIrq) :
    (c.request irqs).syncTimer.bus.memory = c.bus.memory := by
  have ticked : (c.request irqs).syncTimer.bus.memory = (c.request irqs).bus.memory :=
    (c.request irqs).memory_syncTimer
  rw [ticked, memory_request]

theorem betweenInstructions_of_noIrq {c : Cpu FlatBus} (irqQueue : c.bus.irqQueue = [])
    (armed : Bool) : c.betweenInstructions armed = c.trapIf armed :=
  betweenInstructions_of_nothing (fun _ => FlatBus.pendingIrq_of_empty irqQueue) armed

/-- One step of a repeated string instruction, before anything is said of interrupts. -/
def stringStep (c : Cpu FlatBus) (op : StringOp) (w : Width) : Cpu FlatBus :=
  ((c.syncTimer.setIp (c.regs.ip + 1)).string op w).retire

theorem irqQueue_stringStep (c : Cpu FlatBus) (op : StringOp) (w : Width) :
    (c.stringStep op w).bus.irqQueue = c.bus.irqQueue := by
  have steady := (c.syncTimer.setIp (c.regs.ip + 1)).steady_string op w
  exact (FlatBus.irqQueue_access steady.bus).trans (FlatBus.irqQueue_ticks _ _)

theorem acknowledged_stringStep (c : Cpu FlatBus) (op : StringOp) (w : Width) :
    (c.stringStep op w).bus.acknowledged = c.bus.acknowledged := by
  have steady := (c.syncTimer.setIp (c.regs.ip + 1)).steady_string op w
  exact (FlatBus.acknowledged_access steady.bus).trans (FlatBus.acknowledged_ticks _ _)

theorem inPlace_stringStep (c : Cpu FlatBus) (op : StringOp) (w : Width) {mode : RepeatMode}
    (rep : c.prefixes.rep = some mode) : InPlace c (c.stringStep op w) := by
  have done := (c.syncTimer.setIp (c.regs.ip + 1)).string_inPlace op w rep
  exact ⟨done.ss, done.sp, done.cs, done.interrupt, done.trap, done.config, done.irqFrames,
    done.halted⟩

/-- The step ends the repetition, or comes back to the opcode with the counter taken down. -/
theorem course_stringStep (c : Cpu FlatBus) (op : StringOp) (w : Width) {mode : RepeatMode}
    (rep : c.prefixes.rep = some mode) :
    (c.stringStep op w).regs.ip = c.regs.ip + 1 ∨
      (c.stringStep op w).regs.ip = c.regs.ip ∧ (c.stringStep op w).prefixes.rep = some mode ∧
        (c.stringStep op w).regs.cx.toNat < c.regs.cx.toNat := by
  cases (c.syncTimer.setIp (c.regs.ip + 1)).string_course op w rep with
  | done ip => exact .inl ip
  | again ip rep keep counted cx =>
      refine .inr ⟨ip.trans (UInt16.add_sub_cancel c.regs.ip 1), ?_, ?_⟩
      · refine Eq.trans ?_ rep
        change (Prefixes.retire _).rep = _
        rw [Prefixes.retire, if_pos keep]
      · have one : (1 : UInt16).toNat = 1 := rfl
        have some : c.regs.cx.toNat ≠ 0 := fun zero => counted (UInt16.toNat_inj.1 zero)
        have less : (c.stringStep op w).regs.cx = c.regs.cx - 1 := cx
        have bound := c.regs.cx.toNat_lt
        rw [less, UInt16.toNat_sub, one]
        omega

theorem get_stringStep {c : Cpu FlatBus} {op : StringOp} {w : Width} {mode : RepeatMode}
    {byte : UInt32} (rep : c.prefixes.rep = some mode)
    (outside : c.regs.cx ≠ 0 → wrapAddress byte ∉ c.elementWrites op w) :
    (c.stringStep op w).bus.memory.get byte = c.bus.memory.get byte := by
  have kept := get_string (c := c.syncTimer.setIp (c.regs.ip + 1)) (w := w) rep outside
  have ticked : c.syncTimer.bus.memory = c.bus.memory := c.memory_syncTimer
  exact kept.trans (congrArg (Memory.get · byte) ticked)

theorem step_string {c : Cpu FlatBus} {op : StringOp} {w : Width} (running : c.halted = false)
    (stands : c.syncTimer.Stands (.string op w)) (trap : c.regs.flags.trap = false) :
    c.step = (c.stringStep op w).betweenInstructions false := by
  rw [step_of_stands running stands rfl, trap]
  rfl

/-- One step of a handler that returns with no other open, before anything is said of further
interrupts. -/
def returnStep (c : Cpu FlatBus) (frame : IrqFrame) : Cpu FlatBus :=
  ((c.syncTimer.setIp (c.regs.ip + 1)).popFrame.endIrq frame []).retire

theorem config_returnStep (c : Cpu FlatBus) (frame : IrqFrame) :
    (c.returnStep frame).config = c.config := by
  have popped := (c.syncTimer.setIp (c.regs.ip + 1)).plain_popFrame
  rw [returnStep]
  exact popped.config

theorem halted_returnStep (c : Cpu FlatBus) (frame : IrqFrame) :
    (c.returnStep frame).halted = c.halted := by
  have popped := (c.syncTimer.setIp (c.regs.ip + 1)).plain_popFrame
  rw [returnStep]
  exact popped.halted

theorem prefixes_returnStep (c : Cpu FlatBus) (frame : IrqFrame) :
    (c.returnStep frame).prefixes =
      { c.prefixes with
        segment := frame.context.segment, rep := frame.context.rep, keep := false } := by
  have popped : (c.syncTimer.setIp (c.regs.ip + 1)).popFrame.prefixes = c.prefixes :=
    (plain_popFrame _).prefixes
  rw [returnStep, retire, endIrq, popped]
  rfl

theorem regs_returnStep (c : Cpu FlatBus) (frame : IrqFrame) {r : Registers}
    (ss : c.regs.ss = r.ss) (sp : c.regs.sp = r.sp - 6) (held : c.bus.memory.HoldsFrame r) :
    (c.returnStep frame).regs =
      { c.regs with ip := r.ip, cs := r.cs, flags := r.flags, sp := r.sp } := by
  have stillHeld : (MemoryBus.memory c.syncTimer.bus).HoldsFrame r := by
    rw [c.memory_syncTimer]
    exact held
  rw [returnStep]
  exact (c.syncTimer.setIp (c.regs.ip + 1)).regs_popFrame ss sp stillHeld

theorem irqQueue_returnStep (c : Cpu FlatBus) (frame : IrqFrame) :
    (c.returnStep frame).bus.irqQueue = c.bus.irqQueue :=
  FlatBus.irqQueue_ticks c.bus c.ticksOwed

theorem acknowledged_returnStep (c : Cpu FlatBus) (frame : IrqFrame) :
    (c.returnStep frame).bus.acknowledged = c.bus.acknowledged.push frame.line :=
  congrArg (Array.push · frame.line) (FlatBus.acknowledged_ticks c.bus c.ticksOwed)

theorem memory_returnStep (c : Cpu FlatBus) (frame : IrqFrame) :
    (c.returnStep frame).bus.memory = c.bus.memory :=
  c.memory_syncTimer

theorem step_return {c : Cpu FlatBus} {frame : IrqFrame} (running : c.halted = false)
    (stands : c.syncTimer.Stands .iret) (frames : c.irqFrames = [frame])
    (here : c.atIrqFrame frame) (trap : c.regs.flags.trap = false) :
    c.step = (c.returnStep frame).betweenInstructions false := by
  have returned := returnFromInterrupt_of_atIrqFrame
    (c := c.syncTimer.setIp (c.regs.ip + 1)) frames here
  rw [step_of_stands running stands (congrArg Outcome.ok returned), trap]
  rfl

end Cpu

theorem Alike.request {places : List UInt32} {p c : Cpu FlatBus} (h : Alike places p c)
    (irqs : List PendingIrq) : Alike places p (c.request irqs) := by
  refine ⟨h.regs, h.prefixes, h.config, ?_⟩
  change Memory.AgreeOutside places p.bus.memory (c.request irqs).bus.memory
  rw [c.memory_request]
  exact h.memory

theorem Alike.stringStep {places : List UInt32} {p c : Cpu FlatBus} {op : StringOp} {w : Width}
    {mode : RepeatMode} (h : Alike places p c) (noPort : op.usesPort = false)
    (rep : p.prefixes.rep = some mode)
    (outside : p.regs.cx ≠ 0 → ∀ byte ∈ p.elementReads op w, byte ∉ places) :
    Alike places (p.stringStep op w) (c.stringStep op w) := by
  have fetched := h.syncTimer.withRegs fun regs => { regs with ip := regs.ip + 1 }
  refine (fetched.string noPort rep fun some => ?_).retire
  have reads : (p.syncTimer.setIp (p.regs.ip + 1)).elementReads op w = p.elementReads op w :=
    p.syncTimer.elementReads_setIp _ op w
  exact reads ▸ outside some

end RealMode
