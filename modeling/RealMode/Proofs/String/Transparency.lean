import RealMode.Proofs.String.Interruption

/-!
Repeated string instructions do not show that they have been interrupted. The run without requests
is followed by the run with them: `Ready` states agree with a state of the former, `Handling` states
are in the handler that such a state has been left for.
-/

namespace RealMode

/-- The bytes just below the stack, which a handler takes for its frame. -/
abbrev Cpu.below (start : Cpu FlatBus) : List UInt32 :=
  frameBytes start.regs.ss start.regs.sp

/-- A state of the run without requests, up to and including its end. -/
structure Along (start : Cpu FlatBus) (irqs : List PendingIrq) (p : Cpu FlatBus) : Prop where
  inPlace : Cpu.InPlace start p
  irqQueue : p.bus.irqQueue = []
  fixed : ∀ byte ∈ fixedBytes start irqs, p.bus.memory.get byte = start.bus.memory.get byte

/-- A state of the run without requests, before its end. -/
structure Standing (start : Cpu FlatBus) (irqs : List PendingIrq) (mode : RepeatMode)
    (p : Cpu FlatBus) : Prop extends Along start irqs p where
  ip : p.regs.ip = start.regs.ip
  rep : p.prefixes.rep = some mode
  unfinished : Unfinished start p

/-- Agrees with a state of the run without requests. -/
structure Ready (start p c : Cpu FlatBus) : Prop extends Alike start.below p c where
  running : c.halted = false
  irqQueue : c.bus.irqQueue = []
  irqFrames : c.irqFrames = []

def Cpu.leftFor (p : Cpu FlatBus) (irq : PendingIrq) (loopBounds : Option (UInt16 × UInt16)) :
    IrqFrame :=
  ⟨p.regs.ss, p.regs.sp - 6, irq.line, ⟨p.prefixes.segment, p.prefixes.rep, loopBounds⟩⟩

/-- In the handler that a state of the run without requests has been left for. -/
structure Handling (start p : Cpu FlatBus) (irq : PendingIrq) (c : Cpu FlatBus) : Prop where
  running : c.halted = false
  regs : c.regs =
    { p.regs with
      sp := p.regs.sp - 6
      cs := (Bus.readFar start.bus (vectorAddress irq.vector)).2
      ip := (Bus.readFar start.bus (vectorAddress irq.vector)).1
      flags := p.regs.flags.maskInterrupts }
  prefixes : c.prefixes = { p.prefixes with segment := none, rep := none }
  keep : p.prefixes.keep = false
  config : c.config = p.config
  irqFrames : ∃ loopBounds, c.irqFrames = [p.leftFor irq loopBounds]
  memory : Memory.AgreeOutside start.below p.bus.memory c.bus.memory
  frame : c.bus.memory.HoldsFrame p.regs

/-- Follows the run without requests, perhaps with a handler open. -/
def Follows (start p : Cpu FlatBus) (c : Cpu FlatBus) : Option PendingIrq → Prop
  | none => Ready start p c
  | some irq => Handling start p irq c

/-- The interrupts that have been asked for and not ended, given the one in service. -/
def Cpu.unended (c : Cpu FlatBus) (open? : Option PendingIrq) : List PendingIrq :=
  open?.toList ++ c.bus.irqQueue

def Cpu.lines (c : Cpu FlatBus) (open? : Option PendingIrq) : List UInt8 :=
  c.bus.acknowledged.toList ++ (c.unended open?).map PendingIrq.line

/-- A run on a schedule comes to an end that agrees with `plain`. By then the interrupts on `lines`
and all that were asked for on the way have been ended, each once and in order. -/
def Agrees (start plain c : Cpu FlatBus) (schedule : List (List PendingIrq)) (lines : List UInt8) :
    Prop :=
  ∃ m final, Finishes start c schedule m final ∧ Ready start plain final ∧
    final.bus.acknowledged.toList = lines ++ (schedule.take m).flatten.map PendingIrq.line

section

variable {start p c : Cpu FlatBus} {op : StringOp} {w : Width} {mode : RepeatMode}
  {irqs : List PendingIrq}

theorem along_start (at_ : AtRepeatedString start op w mode) : Along start irqs start :=
  ⟨⟨rfl, rfl, rfl, rfl, rfl, rfl, rfl, rfl⟩, at_.irqQueue, fun _ _ => rfl⟩

theorem standing_start (at_ : AtRepeatedString start op w mode) :
    Standing start irqs mode start :=
  ⟨along_start at_, rfl, at_.rep, .start⟩

theorem Along.get_fixed (along : Along start irqs p) (quiet : Undisturbed start op w irqs)
    (agree : Memory.AgreeOutside start.below p.bus.memory c.bus.memory) {byte : UInt32}
    (member : byte ∈ fixedBytes start irqs) :
    c.bus.memory.get byte = start.bus.memory.get byte := by
  refine (agree byte ?_).trans (along.fixed byte member)
  rw [wrapAddress_of_mem_fixedBytes member]
  exact quiet.apart byte member

theorem Along.readFar (along : Along start irqs p) (quiet : Undisturbed start op w irqs)
    (agree : Memory.AgreeOutside start.below p.bus.memory c.bus.memory) {irq : PendingIrq}
    (known : irq ∈ irqs) :
    Bus.readFar c.bus (vectorAddress irq.vector) =
      Bus.readFar start.bus (vectorAddress irq.vector) := by
  have fixed : ∀ byte ∈ slotBytes irq.vector,
      c.bus.memory.get byte = start.bus.memory.get byte := fun byte member =>
    along.get_fixed quiet agree
      (List.mem_cons_of_mem _ (List.mem_flatMap.2 ⟨irq, known, List.mem_cons_of_mem _ member⟩))
  refine Prod.ext ?_ ?_
  · exact Memory.readWord_congr fun byte member => fixed byte (List.mem_append_left _ member)
  · exact Memory.readWord_congr fun byte member => fixed byte (List.mem_append_right _ member)

/-- Entering a handler touches nothing but the bytes below the stack, where it leaves its frame. -/
theorem handling_enterIrq (quiet : Undisturbed start op w irqs) (along : Along start irqs p)
    (alike : Alike start.below p c) (keep : p.prefixes.keep = false) (irqFrames : c.irqFrames = [])
    (irq : PendingIrq) :
    Handling start p irq
      (c.enterIrq irq (Bus.readFar start.bus (vectorAddress irq.vector)).swap) := by
  have below : start.below = frameBytes c.regs.ss c.regs.sp := by
    rw [alike.regs, along.inPlace.ss, along.inPlace.sp]
  have pushed :
      (c.enterIrq irq (Bus.readFar start.bus (vectorAddress irq.vector)).swap).bus.memory =
        c.bus.memory.pushFrame c.regs := c.memory_enterIrq irq _
  refine
    { running := rfl
      regs := ?_
      prefixes := ?_
      keep := keep
      config := alike.config
      irqFrames := ⟨c.loopBounds, ?_⟩
      memory := ?_
      frame := ?_ }
  · rw [Cpu.regs_enterIrq, alike.regs]
    rfl
  · rw [← alike.prefixes]
    rfl
  · rw [Cpu.irqFrames_enterIrq, irqFrames, alike.regs, Cpu.irqContext, alike.prefixes]
    rfl
  · rw [pushed]
    refine alike.memory.trans ?_
    rw [below]
    exact Memory.agreeOutside_pushFrame _ _
  · rw [pushed, ← alike.regs]
    refine Memory.holdsFrame_pushFrame _ ?_
    rw [← below]
    exact quiet.ram

/-- The interrupts that wait are served one after the other: either none does, or the handler of
the first is entered. -/
theorem follows_betweenInstructions (at_ : AtRepeatedString start op w mode)
    (quiet : Undisturbed start op w irqs) (along : Along start irqs p)
    (alike : Alike start.below p c) (keep : p.prefixes.keep = false) (running : c.halted = false)
    (irqFrames : c.irqFrames = []) (known : ∀ irq ∈ c.bus.irqQueue, irq ∈ irqs) :
    ∃ open? d, c.betweenInstructions false = .ok d ∧ Follows start p d open? ∧
      d.unended open? = c.bus.irqQueue ∧ d.bus.acknowledged = c.bus.acknowledged := by
  have on : c.regs.flags.interrupt = true := by
    rw [alike.regs, along.inPlace.interrupt, at_.interrupt]
  cases queue : c.bus.irqQueue with
  | nil =>
      exact ⟨none, c, Cpu.betweenInstructions_of_noIrq queue false, ⟨alike, running, queue, irqFrames⟩,
        queue, rfl⟩
  | cons irq rest =>
      have member : irq ∈ irqs := known irq (by rw [queue]; exact List.mem_cons_self)
      have pending : Bus.pendingIrq c.bus = (some irq, { c.bus with irqQueue := rest }) := by
        change c.bus.takeIrq = _
        rw [FlatBus.takeIrq, queue]
      have target := along.readFar (c := c) quiet alike.memory member
      have nonzero : Bus.readFar c.bus (vectorAddress irq.vector) ≠ (0, 0) := by
        rw [target]
        exact (quiet.handlers irq member).nonzero
      have found :=
        Cpu.handler_of_ne_zero (c := { c with bus := { c.bus with irqQueue := rest } }) nonzero
      have accepted := Cpu.serviceIrq_of_handler pending found
      refine ⟨some irq, _, Cpu.betweenInstructions_of_accepted on accepted, ?_, rfl, rfl⟩
      have taken : Alike start.below p { c with bus := { c.bus with irqQueue := rest } } :=
        ⟨alike.regs, alike.prefixes, alike.config, alike.memory⟩
      have entered := handling_enterIrq quiet along taken keep irqFrames irq
      rw [← target] at entered
      exact entered

theorem stands_of_alike (at_ : AtRepeatedString start op w mode)
    (quiet : Undisturbed start op w irqs) (standing : Standing start irqs mode p)
    (alike : Alike start.below p c) : c.syncTimer.Stands (.string op w) := by
  have place : c.regs.codeAddress = start.regs.codeAddress := by
    rw [alike.regs, Registers.codeAddress, standing.inPlace.cs, standing.ip]
    rfl
  have byte := standing.get_fixed (c := c) quiet alike.memory List.mem_cons_self
  have kept : c.syncTimer.bus.memory = c.bus.memory := c.memory_syncTimer
  have config : c.syncTimer.config = start.config := alike.config.trans standing.inPlace.config
  change Opcode.ofByte c.syncTimer.config.variant
    (c.syncTimer.bus.memory.get c.regs.codeAddress) = _
  rw [kept, place, byte, config]
  exact at_.stands

theorem along_stringStep (quiet : Undisturbed start op w irqs)
    (standing : Standing start irqs mode p) : Along start irqs (p.stringStep op w) where
  inPlace := standing.inPlace.trans (p.inPlace_stringStep op w standing.rep)
  irqQueue := by rw [Cpu.irqQueue_stringStep, standing.irqQueue]
  fixed byte member := by
    refine (Cpu.get_stringStep standing.rep fun some written => ?_).trans
      (standing.fixed byte member)
    rw [wrapAddress_of_mem_fixedBytes member] at written
    exact (quiet.writes p standing.unfinished some byte written).1 member

theorem Standing.not_over (h : Standing start irqs mode p) : ¬ Over start p := by
  intro isOver
  exact ne_succ start.regs.ip (h.ip.symm.trans isOver.ip)

theorem Along.isOver (h : Along start irqs p) (at_ : AtRepeatedString start op w mode)
    (ip : p.regs.ip = start.regs.ip + 1) : Over start p :=
  ⟨h.inPlace.cs, ip, h.irqQueue, h.inPlace.irqFrames.trans at_.irqFrames⟩

/-- A step of the run without requests ends it or takes the counter down. -/
theorem standing_step (at_ : AtRepeatedString start op w mode) (quiet : Undisturbed start op w irqs)
    (standing : Standing start irqs mode p) :
    p.step = .ok (p.stringStep op w) ∧
      (Over start (p.stringStep op w) ∨
        Standing start irqs mode (p.stringStep op w) ∧
          (p.stringStep op w).regs.cx.toNat < p.regs.cx.toNat) := by
  have along := along_stringStep quiet standing
  have step : p.step = .ok (p.stringStep op w) := by
    have running : p.halted = false := standing.inPlace.halted.trans at_.running
    have stands := stands_of_alike at_ quiet standing (.refl _ p)
    rw [Cpu.step_string running stands (standing.inPlace.trap.trans at_.trap)]
    exact Cpu.betweenInstructions_of_noIrq along.irqQueue false
  refine ⟨step, ?_⟩
  rcases p.course_stringStep op w standing.rep with ip | ⟨ip, rep, less⟩
  · exact .inl (along.isOver at_ (by rw [ip, standing.ip]))
  · have back := ip.trans standing.ip
    refine .inr ⟨⟨along, back, rep, standing.unfinished.step step fun isOver => ?_⟩, less⟩
    exact ne_succ start.regs.ip (back.symm.trans isOver.ip)

theorem standing_finishes (at_ : AtRepeatedString start op w mode)
    (quiet : Undisturbed start op w irqs) (standing : Standing start irqs mode p) :
    ∃ n final, Finishes start p [] n final := by
  -- Every step but the last takes the counter down.
  induction count : p.regs.cx.toNat using Nat.strongRecOn generalizing p with
  | ind count ih =>
      obtain ⟨step, isOver | ⟨next, less⟩⟩ := standing_step at_ quiet standing
      · exact ⟨1, _, .step standing.not_over step (.done isOver)⟩
      · obtain ⟨n, final, rest⟩ := ih _ (by rwa [← count]) next rfl
        exact ⟨n + 1, final, .step standing.not_over step rest⟩

/-- A step of the instruction takes both runs on. If interrupts wait by then, the first is taken. -/
theorem ready_step (at_ : AtRepeatedString start op w mode) (quiet : Undisturbed start op w irqs)
    (noPort : op.usesPort = false) (standing : Standing start irqs mode p) (ready : Ready start p c)
    (more : List PendingIrq) (known : ∀ irq ∈ more, irq ∈ irqs) :
    ∃ open? d, (c.request more).step = .ok d ∧ Follows start (p.stringStep op w) d open? ∧
      d.unended open? = more ∧ d.lines open? = c.lines none ++ more.map PendingIrq.line := by
  have asked := ready.toAlike.request more
  have trap : c.regs.flags.trap = false := by
    rw [ready.regs, standing.inPlace.trap, at_.trap]
  have step := Cpu.step_string (c := c.request more) ready.running
    (stands_of_alike at_ quiet standing asked) trap
  have alike := asked.stringStep noPort standing.rep (quiet.reads p standing.unfinished)
  have done := (c.request more).inPlace_stringStep op w (ready.prefixes ▸ standing.rep)
  have queue : ((c.request more).stringStep op w).bus.irqQueue = more := by
    rw [Cpu.irqQueue_stringStep, Cpu.irqQueue_request, ready.irqQueue, List.nil_append]
  have lines : ((c.request more).stringStep op w).bus.acknowledged = c.bus.acknowledged := by
    rw [Cpu.acknowledged_stringStep, Cpu.acknowledged_request]
  obtain ⟨open?, d, served, follows, waits, ended⟩ := follows_betweenInstructions at_ quiet
    (along_stringStep quiet standing) alike (Cpu.keep_retire _)
    (done.halted.trans ready.running) (done.irqFrames.trans ready.irqFrames) (queue.symm ▸ known)
  refine ⟨open?, d, step.trans served, follows, waits.trans queue, ?_⟩
  rw [Cpu.lines, Cpu.lines, waits, queue, ended, lines, Cpu.unended, ready.irqQueue]
  simp

theorem stands_iret (quiet : Undisturbed start op w irqs) (along : Along start irqs p)
    {irq : PendingIrq} (here : irq ∈ irqs) (handling : Handling start p irq c)
    (more : List PendingIrq) : (c.request more).syncTimer.Stands .iret := by
  have member : handlerByte start.bus irq.vector ∈ fixedBytes start irqs :=
    List.mem_cons_of_mem _ (List.mem_flatMap.2 ⟨irq, here, List.mem_cons_self⟩)
  have byte : c.bus.memory.get (handlerByte start.bus irq.vector) = 0xCF :=
    (along.get_fixed quiet handling.memory member).trans (quiet.handlers irq here).handler
  have place : c.regs.codeAddress = handlerByte start.bus irq.vector := by
    rw [handling.regs]
    rfl
  change Opcode.ofByte c.config.variant
    ((c.request more).syncTimer.bus.memory.get c.regs.codeAddress) = _
  rw [c.memory_request_syncTimer, place, byte]
  cases c.config.variant <;> rfl

theorem alike_returnStep {irq : PendingIrq} (handling : Handling start p irq c)
    (loopBounds : Option (UInt16 × UInt16)) (more : List PendingIrq) :
    Alike start.below p ((c.request more).returnStep (p.leftFor irq loopBounds)) where
  regs := by
    have held : (c.request more).bus.memory.HoldsFrame p.regs := by
      rw [Cpu.memory_request]
      exact handling.frame
    have ss : c.regs.ss = p.regs.ss := by rw [handling.regs]
    have sp : c.regs.sp = p.regs.sp - 6 := by rw [handling.regs]
    rw [(c.request more).regs_returnStep _ ss sp held]
    change { c.regs with
      ip := p.regs.ip, cs := p.regs.cs, flags := p.regs.flags, sp := p.regs.sp } = p.regs
    rw [handling.regs]
  prefixes := by
    rw [Cpu.prefixes_returnStep]
    change { c.prefixes with
      segment := p.prefixes.segment, rep := p.prefixes.rep, keep := false } = p.prefixes
    rw [handling.prefixes, ← handling.keep]
  config := by
    rw [Cpu.config_returnStep]
    exact handling.config
  memory := by
    change Memory.AgreeOutside start.below p.bus.memory (Cpu.returnStep _ _).bus.memory
    rw [Cpu.memory_returnStep, Cpu.memory_request]
    exact handling.memory

/-- The return takes the run back to the state that the handler has been entered from, at once into
the handler of the next interrupt if one waits. -/
theorem handling_step (at_ : AtRepeatedString start op w mode) (quiet : Undisturbed start op w irqs)
    (along : Along start irqs p) {irq : PendingIrq} (here : irq ∈ irqs)
    (handling : Handling start p irq c) (more : List PendingIrq)
    (known : ∀ next ∈ c.bus.irqQueue ++ more, next ∈ irqs) :
    ∃ open? d, (c.request more).step = .ok d ∧ Follows start p d open? ∧
      d.unended open? = c.bus.irqQueue ++ more ∧
      d.lines open? = c.lines (some irq) ++ more.map PendingIrq.line := by
  obtain ⟨loopBounds, frames⟩ := handling.irqFrames
  have ss : c.regs.ss = p.regs.ss := by rw [handling.regs]
  have sp : c.regs.sp = p.regs.sp - 6 := by rw [handling.regs]
  have trap : c.regs.flags.trap = false := by
    rw [handling.regs]
    rfl
  have step := Cpu.step_return (c := c.request more) handling.running
    (stands_iret quiet along here handling more) frames ⟨ss.symm, sp.symm⟩ trap
  have queue : ((c.request more).returnStep (p.leftFor irq loopBounds)).bus.irqQueue =
      c.bus.irqQueue ++ more := by
    rw [Cpu.irqQueue_returnStep, Cpu.irqQueue_request]
  have running : ((c.request more).returnStep (p.leftFor irq loopBounds)).halted = false := by
    rw [Cpu.halted_returnStep]
    exact handling.running
  obtain ⟨open?, d, served, follows, waits, ended⟩ := follows_betweenInstructions at_ quiet along
    (alike_returnStep handling loopBounds more) handling.keep running rfl (queue.symm ▸ known)
  refine ⟨open?, d, step.trans served, follows, waits.trans queue, ?_⟩
  rw [Cpu.lines, Cpu.lines, waits, queue, ended, Cpu.acknowledged_returnStep,
    Cpu.acknowledged_request, Array.toList_push, Cpu.leftFor, Cpu.unended]
  simp

theorem flatten_eq_headD_append {α : Type} (schedule : List (List α)) :
    schedule.flatten = schedule.headD [] ++ schedule.tail.flatten := by
  cases schedule <;> rfl

theorem flatten_take_succ {α : Type} (schedule : List (List α)) (m : Nat) :
    (schedule.take (m + 1)).flatten = schedule.headD [] ++ (schedule.tail.take m).flatten := by
  cases schedule with
  | nil => rw [List.take_nil, List.tail_nil, List.take_nil]; rfl
  | cons => rfl

theorem Ready.isOver (ready : Ready start p c) (isOver : Over start p) : Over start c :=
  ⟨by rw [ready.regs, isOver.cs], by rw [ready.regs, isOver.ip], ready.irqQueue, ready.irqFrames⟩

theorem Ready.not_over (ready : Ready start p c) (standing : Standing start irqs mode p) :
    ¬ Over start c := by
  intro isOver
  have back : c.regs.ip = start.regs.ip := by rw [ready.regs, standing.ip]
  exact ne_succ start.regs.ip (back.symm.trans isOver.ip)

theorem Handling.not_over {irq : PendingIrq} (handling : Handling start p irq c) :
    ¬ Over start c := by
  intro isOver
  obtain ⟨_, frames⟩ := handling.irqFrames
  exact List.cons_ne_nil _ _ (frames.symm.trans isOver.irqFrames)

theorem agrees_over (ready : Ready start p c) (isOver : Over start p)
    (schedule : List (List PendingIrq)) : Agrees start p c schedule (c.lines none) := by
  refine ⟨0, c, .done (ready.isOver isOver), ready, ?_⟩
  rw [Cpu.lines, Cpu.unended, ready.irqQueue]
  simp

theorem Agrees.step {plain d : Cpu FlatBus} {schedule : List (List PendingIrq)}
    {open? next? : Option PendingIrq} (notYet : ¬ Over start c)
    (step : (c.request (schedule.headD [])).step = .ok d)
    (lines : d.lines next? = c.lines open? ++ (schedule.headD []).map PendingIrq.line)
    (rest : Agrees start plain d schedule.tail (d.lines next?)) :
    Agrees start plain c schedule (c.lines open?) := by
  obtain ⟨m, final, finishes, ready, ended⟩ := rest
  refine ⟨m + 1, final, .step notYet step finishes, ready, ?_⟩
  rw [ended, lines, flatten_take_succ, List.map_append, List.append_assoc]

/-- Wherever the run has come, it ends in agreement with the run without requests. Each step takes
the latter on or ends an interrupt. -/
theorem agrees_follows (at_ : AtRepeatedString start op w mode)
    (quiet : Undisturbed start op w irqs) (noPort : op.usesPort = false) (open? : Option PendingIrq)
    {schedule : List (List PendingIrq)} {n : Nat} {plain : Cpu FlatBus}
    (along : Along start irqs p) (place : Standing start irqs mode p ∨ Over start p)
    (run : Finishes start p [] n plain) (follows : Follows start p c open?)
    (known : c.unended open? ++ schedule.flatten ⊆ irqs) :
    Agrees start plain c schedule (c.lines open?) := by
  -- Each step takes one away from this sum: a step of the instruction or an interrupt.
  induction left : n + (c.unended open?).length + schedule.flatten.length
    using Nat.strongRecOn generalizing p c open? schedule n with
  | ind total ih =>
      rw [flatten_eq_headD_append schedule] at known left
      cases open? with
      | some irq =>
          have here : irq ∈ irqs := known List.mem_cons_self
          have later : c.bus.irqQueue ++ schedule.headD [] ++ schedule.tail.flatten ⊆ irqs := by
            rw [List.append_assoc]
            exact fun next member => known (List.mem_cons_of_mem irq member)
          obtain ⟨next?, d, step, follows', unended, lines⟩ := handling_step at_ quiet along here
            follows (schedule.headD []) fun next member =>
              later (List.mem_append_left _ member)
          have less : n + (d.unended next?).length + schedule.tail.flatten.length < total := by
            have unendedHere : (c.unended (some irq)).length = c.bus.irqQueue.length + 1 := rfl
            rw [← left, unended, unendedHere, List.length_append, List.length_append]
            omega
          exact Agrees.step (Handling.not_over follows) step lines
            (ih _ less next? along place run follows' (unended ▸ later) rfl)
      | none =>
          have none : c.unended none = [] := Ready.irqQueue follows
          rw [none, List.nil_append] at known
          cases run with
          | done isOver => exact agrees_over follows isOver schedule
          | @step p' p'' final schedule' n notYet step rest =>
              have standing := place.resolve_right notYet
              obtain ⟨onwards, next⟩ := standing_step at_ quiet standing
              obtain rfl : p.stringStep op w = p'' := congrArg Outcome.cpu (onwards.symm.trans step)
              obtain ⟨next?, d, step, follows', unended, lines⟩ := ready_step at_ quiet noPort
                standing follows (schedule.headD []) fun next member =>
                  known (List.mem_append_left _ member)
              have less : n + (d.unended next?).length + schedule.tail.flatten.length < total := by
                rw [← left, unended, none, List.length_append]
                change _ < n + 1 + 0 + _
                omega
              exact Agrees.step (Ready.not_over follows standing) step lines
                (ih _ less next? (along_stringStep quiet standing)
                  (next.symm.imp_left And.left) rest follows' (unended ▸ known) rfl)

/-- A repeated string instruction that is interrupted, wherever and however often, ends with the
registers of one that is not, and with its memory but for the bytes just below the stack. By then
each interrupt has been ended once. -/
theorem interrupted_string_agrees (at_ : AtRepeatedString start op w mode)
    (noPort : op.usesPort = false) {schedule : List (List PendingIrq)}
    (quiet : Undisturbed start op w schedule.flatten) :
    ∃ n plain m final, Finishes start start [] n plain ∧ Finishes start start schedule m final ∧
      final.regs = plain.regs ∧
      Memory.AgreeOutside start.below plain.bus.memory final.bus.memory ∧
      final.bus.acknowledged.toList =
        start.bus.acknowledged.toList ++ (schedule.take m).flatten.map PendingIrq.line := by
  obtain ⟨n, plain, run⟩ := standing_finishes at_ quiet (standing_start at_)
  have ready : Ready start start start :=
    ⟨.refl _ start, at_.running, at_.irqQueue, at_.irqFrames⟩
  have none : start.unended none = [] := at_.irqQueue
  obtain ⟨m, final, finishes, agrees, lines⟩ := agrees_follows at_ quiet noPort .none
    (along_start at_) (.inl (standing_start at_)) run ready (by rw [none]; exact List.Subset.refl _)
  refine ⟨n, plain, m, final, run, finishes, agrees.regs, agrees.memory, lines.trans ?_⟩
  rw [Cpu.lines, none, List.map_nil, List.append_nil]

end

/-- Fills two bytes. The keyboard's handler stands at 0000:0030. -/
def fillStart : Cpu FlatBus where
  regs := { ip := 0x10, cx := 2, di := 0x50, sp := 0x48, flags := { interrupt := true } }
  bus := { memory := ((Memory.zero.set 0x10 0xAA).set 0x24 0x30).set 0x30 0xCF }
  config := .ofRatio .i8086 4 false
  prefixes := { rep := some .whileZero }

def fillHalfway : Cpu FlatBus :=
  fillStart.stringStep .stos .byte

theorem atRepeatedString_fillStart : AtRepeatedString fillStart .stos .byte .whileZero :=
  ⟨by decide, rfl, rfl, rfl, rfl, rfl, rfl⟩

theorem step_fillStart : fillStart.step = .ok fillHalfway := by
  have stands : fillStart.syncTimer.Stands (.string .stos .byte) := by decide
  rw [Cpu.step_string rfl stands rfl]
  exact Cpu.betweenInstructions_of_noIrq (by decide) false

theorem step_fillHalfway : fillHalfway.step = .ok (fillHalfway.stringStep .stos .byte) := by
  have stands : fillHalfway.syncTimer.Stands (.string .stos .byte) := by decide
  rw [Cpu.step_string (by decide) stands (by decide)]
  exact Cpu.betweenInstructions_of_noIrq (by decide) false

theorem over_fill : Over fillStart (fillHalfway.stringStep .stos .byte) :=
  ⟨by decide, by decide, by decide, by decide⟩

theorem unfinished_fillStart {c : Cpu FlatBus} (h : Unfinished fillStart c) :
    c = fillStart ∨ c = fillHalfway := by
  induction h with
  | start => exact .inl rfl
  | @step c d h step notYet ih =>
      rcases ih with rfl | rfl
      · exact .inr (congrArg Outcome.cpu (step.symm.trans step_fillStart))
      · obtain rfl : d = fillHalfway.stringStep .stos .byte :=
          congrArg Outcome.cpu (step.symm.trans step_fillHalfway)
        exact absurd over_fill notYet

theorem undisturbed_fillStart : Undisturbed fillStart .stos .byte [⟨9, 1⟩] where
  handlers irq member := by
    obtain rfl := List.mem_singleton.1 member
    exact ⟨by decide, by decide⟩
  ram := List.all_iff_forall_prop.1 (by decide)
  apart := List.all_iff_forall_prop.1 (by decide)
  writes c h _ := by
    rcases unfinished_fillStart h with rfl | rfl <;>
      exact List.all_iff_forall_prop.1 (by decide)
  reads c _ _ byte member := absurd member List.not_mem_nil

/-- The keyboard between the two bytes. -/
theorem interrupted_string_agrees_keyboard :
    AtRepeatedString fillStart .stos .byte .whileZero ∧
      Undisturbed fillStart .stos .byte [⟨9, 1⟩] ∧
      ∃ n plain m final, Finishes fillStart fillStart [] n plain ∧
        Finishes fillStart fillStart [[⟨9, 1⟩]] m final ∧ final.regs = plain.regs ∧
        Memory.AgreeOutside fillStart.below plain.bus.memory final.bus.memory ∧
        final.bus.acknowledged.toList =
          fillStart.bus.acknowledged.toList ++
            (([[⟨9, 1⟩]] : List (List PendingIrq)).take m).flatten.map PendingIrq.line :=
  ⟨atRepeatedString_fillStart, undisturbed_fillStart,
    interrupted_string_agrees atRepeatedString_fillStart rfl undisturbed_fillStart⟩

end RealMode
