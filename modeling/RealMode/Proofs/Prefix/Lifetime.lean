import RealMode.Proofs.Interrupt.StepCases
import RealMode.Proofs.Prefix.Retirement

/-!
How long prefixes last. Along one flow they are handed on from instruction to instruction, and
interrupts do not break this: an entry hides the prefixes of the flow that it breaks into, and the
return that takes the flow up again brings them back.
-/

namespace RealMode

open MemoryBus (memory)

variable {β : Type}

/-- Every instruction of a flow has been executed under the prefixes that those before it in the
flow hand on. -/
def Seen : List (Executed β) → Prop
  | [] => True
  | x :: flow => InForce (unbroken flow) x.before.prefixes ∧ Seen flow

/-- What a repeated string instruction sees is what it has seen from its first element on. -/
theorem Seen.again {flow : List (Executed β)} (seen : Seen flow) {p : Prefixes}
    (h : InForce (unbroken flow) p) :
    ∀ y ∈ flow.takeWhile Executed.rewinds,
      p.segment = y.before.prefixes.segment ∧ p.rep = y.before.prefixes.rep := by
  induction flow generalizing p with
  | nil => exact fun _ member => absurd member List.not_mem_nil
  | cons x flow ih =>
      cases rewinds : x.rewinds with
      | false =>
          rw [List.takeWhile_cons_of_neg (Bool.eq_false_iff.1 rewinds)]
          exact fun _ member => absurd member List.not_mem_nil
      | true =>
          have isString : x.instr.isString = true := (Bool.and_eq_true_iff.1 rewinds).1
          rw [unbroken_of_passesOn (Executed.passesOn_of_rewinds rewinds)] at h
          -- The instruction itself names no prefix, so `p` is in force where it began.
          have earlier : InForce (unbroken flow) p := by
            refine ⟨?_, ?_⟩
            · rw [h.segment, List.findSome?_cons, Instr.override?_of_isString isString]
            · rw [h.rep, List.findSome?_cons, Instr.repeats?_of_isString isString]
          rw [List.takeWhile_cons_of_pos rewinds]
          intro y member
          rcases List.mem_cons.1 member with rfl | member
          · exact ⟨earlier.segment.trans seen.1.segment.symm, earlier.rep.trans seen.1.rep.symm⟩
          · exact ih seen.2 earlier y member

variable [Bus β]

theorem Event.frame?_enterIrq (c : Cpu β) (irq : PendingIrq) (target : UInt16 × UInt16) :
    Event.frame? ⟨.entry (some irq.line), c, c.enterIrq irq target⟩ =
      some ⟨c.regs.ss, c.regs.sp - 6, irq.line, c.irqContext⟩ := by
  change some (IrqFrame.mk (c.enterIrq irq target).regs.ss (c.enterIrq irq target).regs.sp
    irq.line c.irqContext) = _
  rw [Cpu.regs_enterIrq]

/-- What is known of a flow that a hardware interrupt has broken into. -/
structure Parked (p : Event β × List (Executed β)) : Prop where
  isEntry : p.1.IsEntry
  hardware : p.1.line?.isSome = true
  inForce : InForce (unbroken p.2) p.1.before.prefixes
  seen : Seen p.2

/-- The processor has the prefixes and the interrupts in service that the course of its run makes
it have. Interrupts that were in service from the start are `old`. -/
structure Tracks (old : List IrqFrame) (k : Course β) (c : Cpu β) : Prop where
  inForce : InForce (unbroken k.flow) c.prefixes
  settled : c.prefixes.Settled
  irqFrames : c.irqFrames = Event.frames (k.parked.map Prod.fst) ++ old
  seen : Seen k.flow
  parked : ∀ p ∈ k.parked, Parked p

/-- What a run has to do for its flows to be told apart: it forgets no interrupt in service, and
returns to none that was in service from the start. -/
def Course.Fits (old : List IrqFrame) (k : Course β) : Happening β → Prop
  | .executed x =>
    x.instr = .iret → k.parked = [] → ∀ frame ∈ old.head?, ¬ x.before.atIrqFrame frame
  | .event e => e.line?.isSome → k.parked.length + old.length < maxIrqFrames

namespace Tracks

variable {old : List IrqFrame} {k : Course β} {c d : Cpu β}

theorem congr (h : Tracks old k c) (prefixes : d.prefixes = c.prefixes)
    (irqFrames : d.irqFrames = c.irqFrames) : Tracks old k d where
  inForce := by
    rw [prefixes]
    exact h.inForce
  settled := by
    rw [prefixes]
    exact h.settled
  irqFrames := irqFrames.trans h.irqFrames
  seen := h.seen
  parked := h.parked

theorem irqFrames_of_parked (h : Tracks old k c) {p : Event β × List (Executed β)}
    {outer : List (Event β × List (Executed β))} (parked : k.parked = p :: outer) :
    ∃ line, c.irqFrames = ⟨p.1.after.regs.ss, p.1.after.regs.sp, line, p.1.before.irqContext⟩ ::
      (Event.frames (outer.map Prod.fst) ++ old) := by
  have member : p ∈ k.parked := by
    rw [parked]
    exact List.mem_cons_self
  obtain ⟨line, isLine⟩ := Option.isSome_iff_exists.1 (h.parked p member).hardware
  refine ⟨line, ?_⟩
  rw [h.irqFrames, parked, List.map_cons, Event.frames_cons, Event.frame?, isLine]
  rfl

theorem popFrame_retire {x : Executed β} (h : Tracks old k x.before) (isReturn : x.instr = .iret) :
    Tracks old { k with flow := x :: k.flow } x.before.fetched.popFrame.retire := by
  have drops : x.passesOn = false := by
    rw [Executed.passesOn, Executed.rewinds, isReturn]
    rfl
  refine ⟨?_, Prefixes.settled_retire _, ?_, ⟨h.inForce, h.seen⟩, h.parked⟩
  · change InForce _ x.before.fetched.popFrame.prefixes.retire
    rw [x.before.fetched.plain_popFrame.prefixes]
    exact .drops drops h.settled
  · exact x.before.fetched.plain_popFrame.irqFrames.trans h.irqFrames

theorem endIrq_retire (h : Tracks old k c) {p : Event β × List (Executed β)}
    {outer : List (Event β × List (Executed β))} (parked : k.parked = p :: outer)
    (frame : IrqFrame) (context : frame.context = p.1.before.irqContext) (d : Cpu β) :
    Tracks old ⟨p.2, outer⟩
      (d.endIrq frame (Event.frames (outer.map Prod.fst) ++ old)).retire := by
  have isParked : Parked p := h.parked p (by rw [parked]; exact List.mem_cons_self)
  refine ⟨?_, Prefixes.settled_retire _, rfl, isParked.seen, fun q member => ?_⟩
  · refine ⟨?_, ?_⟩
    · exact (congrArg IrqContext.segment context).trans isParked.inForce.segment
    · exact (congrArg IrqContext.rep context).trans isParked.inForce.rep
  · refine h.parked q ?_
    rw [parked]
    exact List.mem_cons_of_mem _ member

theorem returned {x : Executed β} (h : Tracks old k x.before) (isReturn : x.instr = .iret)
    (fits : k.Fits old (.executed x)) :
    Tracks old (k.next (.executed x)) x.before.fetched.returnFromInterrupt.retire := by
  cases parked : k.parked with
  | nil =>
      have elsewhere : ∀ frame ∈ x.before.irqFrames.head?, ¬ x.before.atIrqFrame frame := by
        rw [h.irqFrames, parked]
        exact fits isReturn parked
      rw [Cpu.returnFromInterrupt_of_not_atIrqFrame (c := x.before.fetched) elsewhere,
        Course.next_of_not_closes (by simp [parked])]
      exact h.popFrame_retire isReturn
  | cons p outer =>
      obtain ⟨line, remembered⟩ := h.irqFrames_of_parked parked
      by_cases closes : x.Closes p.1
      · have here : x.before.atIrqFrame
            ⟨p.1.after.regs.ss, p.1.after.regs.sp, line, p.1.before.irqContext⟩ :=
          ⟨closes.2.1.symm, closes.2.2.symm⟩
        rw [Cpu.returnFromInterrupt_of_atIrqFrame (c := x.before.fetched) remembered here,
          Course.next_of_closes parked closes]
        exact h.endIrq_retire parked _ rfl _
      · have elsewhere : ∀ frame ∈ x.before.irqFrames.head?, ¬ x.before.atIrqFrame frame := by
          rw [remembered]
          rintro frame ⟨⟩ here
          exact closes ⟨isReturn, here.1.symm, here.2.symm⟩
        rw [Cpu.returnFromInterrupt_of_not_atIrqFrame (c := x.before.fetched) elsewhere,
          Course.next_of_not_closes (by rw [parked]; rintro _ ⟨⟩; exact closes)]
        exact h.popFrame_retire isReturn

/-- Any instruction but a return, as long as no handler has been entered. -/
theorem executed {x : Executed β} (h : Tracks old k x.before) (instr : x.before.fetch.instr = x.instr)
    (done : x.before.dispatch = .ok x.after) (notReturn : x.instr ≠ .iret) :
    Tracks old (k.next (.executed x)) x.after.retire := by
  rw [Course.next_of_not_closes fun p _ closes => notReturn closes.1]
  have steady := x.before.fetched.steady_exec notReturn
  have executed : x.before.fetched.exec x.instr = .ok x.after := by
    rw [← instr]
    exact done
  rw [executed] at steady
  refine ⟨?_, Prefixes.settled_retire _, ?_, ⟨h.inForce, h.seen⟩, h.parked⟩
  · have after := inForce_executed done (by rwa [instr]) h.inForce h.settled
    rwa [instr] at after
  · exact steady.irqFrames.trans h.irqFrames

/-- A software entry finds no prefix in force. -/
theorem enters (h : Tracks old k c) (none : c.prefixes.segment = none ∧ c.prefixes.rep = none) :
    Tracks old { k with flow := [] } c where
  inForce := .nil none
  settled := h.settled
  irqFrames := h.irqFrames
  seen := trivial
  parked := h.parked

theorem accepts (h : Tracks old k c) (bus : β) (irq : PendingIrq) (target : UInt16 × UInt16)
    (room : k.parked.length + old.length < maxIrqFrames) :
    Tracks old ⟨[], (⟨.entry (some irq.line), { c with bus }, { c with bus }.enterIrq irq target⟩,
      k.flow) :: k.parked⟩ ({ c with bus }.enterIrq irq target) where
  inForce := .nil ⟨rfl, rfl⟩
  settled := fun _ => ⟨rfl, rfl⟩
  irqFrames := by
    have remembered : c.irqFrames.length + 1 ≤ maxIrqFrames := by
      have frames := List.length_filterMap_le Event.frame? (k.parked.map Prod.fst)
      rw [List.length_map] at frames
      rw [h.irqFrames, List.length_append, Event.frames]
      omega
    rw [List.map_cons, Event.frames_cons, Event.frame?_enterIrq, List.append_assoc, ← h.irqFrames,
      Cpu.irqFrames_enterIrq]
    exact List.take_of_length_le remembered
  seen := trivial
  parked p member := by
    rcases List.mem_cons.1 member with rfl | member
    · exact ⟨⟨⟨irq.vector, target, rfl⟩, _, rfl⟩, rfl, h.inForce, h.seen⟩
    · exact h.parked p member

theorem polled (h : Tracks old k c) (polled : c.Polled d) : Tracks old k d := by
  cases polled with
  | off => exact h
  | idle => exact h.congr rfl rfl

theorem between (h : Tracks old k c) {armed : Bool} {events : List (Event β)}
    (between : c.Boundary armed events (.ok d))
    (fits : k.Along (Course.Fits old) (events.map .event)) :
    Tracks old (k.after (events.map .event)) d := by
  cases between with
  | nothing polled => exact h.polled polled
  | @trap polledCpu target polled due =>
      have none := Prefixes.none_of_not_isPending (Bool.and_eq_true_iff.1 due).2
      have entered := (Cpu.Plain.refl polledCpu).enterInterrupt target Flags.maskInterrupts
      exact ((h.polled polled).enters none).congr entered.prefixes entered.irqFrames
  | accepted => exact h.accepts _ _ _ (fits.1 rfl)

theorem execution (h : Tracks old k c) (done : c.dispatch = .ok d) {events : List (Event β)}
    (executed : c.fetched.Execution c.fetch.instr events (.ok d))
    (fits : k.Fits old (.executed ⟨c.fetch.instr, c, d⟩)) :
    Tracks old ((k.next (.executed ⟨c.fetch.instr, c, d⟩)).after (events.map .event)) d.retire := by
  generalize isNext : c.fetch.instr = instr at executed fits ⊢
  cases executed with
  | returns isReturn => exact h.returned (x := ⟨instr, c, _⟩) isReturn fits
  | works notReturn => exact h.executed (x := ⟨instr, c, d⟩) isNext done notReturn
  | @raises r target raised =>
      have notReturn : instr ≠ .iret := by
        rintro rfl
        cases raised
      have after := h.executed (x := ⟨instr, c, _⟩) isNext done notReturn
      have entered := (((Cpu.Plain.refl c.fetched).spend r.before).enterInterrupt target id).spend
        r.after
      have kept : _ = c.prefixes := entered.prefixes
      have none := h.settled.retire
      rw [← kept] at none
      exact after.enters none

end Tracks

variable [MemoryBus β]

/-- What an instruction of a run sees. -/
structure Course.Sees (k : Course β) (x : Executed β) : Prop where
  inForce : InForce (unbroken k.flow) x.before.prefixes
  again : ∀ y ∈ k.flow.takeWhile Executed.rewinds,
    x.before.prefixes.segment = y.before.prefixes.segment ∧
      x.before.prefixes.rep = y.before.prefixes.rep
  /-- The return that takes up a flow goes where it was broken into. -/
  resumes : ∀ p ∈ k.parked.head?, x.Closes p.1 → (memory x.before.bus).HoldsFrame p.1.before.regs →
    x.after.regs.cs = p.1.before.regs.cs ∧ x.after.regs.ip = p.1.before.regs.ip

def Course.Explains (k : Course β) : Happening β → Prop
  | .executed x => k.Sees x
  | .event _ => True

theorem Course.explains_events (k : Course β) (events : List (Event β)) :
    k.Along Course.Explains (events.map .event) := by
  induction events generalizing k with
  | nil => trivial
  | cons e events ih => exact ⟨trivial, ih _⟩

namespace Tracks

variable {old : List IrqFrame} {k : Course β} {c d : Cpu β}

theorem sees (h : Tracks old k c) (done : c.dispatch = .ok d) : k.Sees ⟨c.fetch.instr, c, d⟩ where
  inForce := h.inForce
  again := h.seen.again h.inForce
  resumes p inner closes frame := by
    obtain ⟨isReturn, ss, sp⟩ := closes
    have place := (h.parked p (List.mem_of_mem_head? inner)).isEntry.regs
    have returned : d = c.fetched.returnFromInterrupt := by
      change c.fetched.exec c.fetch.instr = .ok d at done
      change c.fetch.instr = .iret at isReturn
      rw [isReturn] at done
      exact congrArg Outcome.cpu done.symm
    have popped := c.fetched.regs_popFrame (ss.trans place.1) (sp.trans place.2) frame
    have regs : d.regs = c.fetched.popFrame.regs := by rw [returned, Cpu.regs_returnFromInterrupt]
    change d.regs.cs = _ ∧ d.regs.ip = _
    rw [regs, popped]
    exact ⟨rfl, rfl⟩

theorem step (h : Tracks old k c) (done : c.step = .ok d)
    (fits : k.Along (Course.Fits old) c.happenings) :
    k.Along Course.Explains c.happenings ∧ Tracks old (k.after c.happenings) d := by
  have all := c.stepped
  rw [done] at all
  unfold Cpu.happenings at fits ⊢
  generalize c.stepEvents = events at all fits ⊢
  cases all with
  | idle halted between =>
      rw [if_pos halted] at fits ⊢
      have waits : Tracks old k (c.syncTimer.spend c.config.timerRatio) := h.congr rfl rfl
      exact ⟨k.explains_events events, waits.between between fits⟩
  | @cycle during after finished _ running origin executed between =>
      rw [if_neg (Bool.eq_false_iff.1 running), origin, List.map_append] at fits ⊢
      obtain ⟨fitsInstr, fits⟩ := fits
      change (k.next _).Along _ (during.map .event ++ after.map .event) at fits
      have fitsAfter := (Course.along_append.1 fits).2
      have paid : Tracks old k c.syncTimer := h.congr rfl rfl
      have finished := paid.execution origin executed fitsInstr
      refine ⟨⟨paid.sees origin, ?_⟩, ?_⟩
      · rw [← List.map_append]
        exact Course.explains_events _ _
      · have all := finished.between between fitsAfter
        rw [← Course.after_append] at all
        exact all

end Tracks

theorem Trace.tracks {host : β → β → Prop} {start c : Cpu β} {history : List (Happening β)}
    (trace : Trace host start history c)
    (fresh : start.prefixes.segment = none ∧ start.prefixes.rep = none)
    (fits : Course.Along (Course.Fits start.irqFrames) {} history) :
    Course.Along Course.Explains {} history ∧
      Tracks start.irqFrames (Course.after {} history) c := by
  induction trace with
  | refl =>
      exact ⟨trivial, .nil fresh, fun _ => fresh, rfl, trivial,
        fun _ member => absurd member List.not_mem_nil⟩
  | step _ done ih =>
      obtain ⟨fitsBefore, fitsStep⟩ := Course.along_append.1 fits
      obtain ⟨explained, tracks⟩ := ih fitsBefore
      obtain ⟨explainedStep, after⟩ := tracks.step done fitsStep
      rw [Course.after_append]
      exact ⟨Course.along_append.2 ⟨explained, explainedStep⟩, after⟩
  | act _ _ ih =>
      obtain ⟨explained, tracks⟩ := ih fits
      exact ⟨explained, tracks.congr rfl rfl⟩

/-- Every instruction of a run sees the prefixes that the unbroken end of its own flow names, and
what the program was about to do when a hardware interrupt came it does after the return. -/
theorem prefixes_follow_flow {host : β → β → Prop} {start c : Cpu β}
    {history : List (Happening β)} (trace : Trace host start history c)
    (fresh : start.prefixes.segment = none ∧ start.prefixes.rep = none)
    (fits : Course.Along (Course.Fits start.irqFrames) {} history) :
    Course.Along Course.Explains {} history :=
  (trace.tracks fresh fits).1

/-- The keyboard comes between a repeat prefix and its string instruction. The handler stands at
0000:0000, and the program at 0000:0010. -/
def betweenStart : Cpu FlatBus where
  regs := { ip := 0x10, sp := 0x40, cx := 1, di := 0x20, flags := { interrupt := true } }
  bus := {
    memory := ((Memory.zero.set 0 0xCF).set 0x10 0xF3).set 0x11 0xAA
    irqQueue := [⟨9, 1⟩] }
  config := .ofRatio .i8086 4 false

def betweenPrefix : Cpu FlatBus :=
  ((betweenStart.syncTimer.setIp 0x11).setPrefixes { rep := some .whileZero }).spend 11

def betweenServed : Cpu FlatBus :=
  { betweenPrefix.retire with bus := betweenPrefix.retire.bus.takeIrq.2 }

def betweenHandler : Cpu FlatBus :=
  betweenServed.enterIrq ⟨9, 1⟩ (0, 0)

def betweenReturn : Cpu FlatBus :=
  (betweenHandler.syncTimer.setIp 1).returnFromInterrupt

def betweenFilled : Cpu FlatBus :=
  (betweenReturn.retire.syncTimer.setIp 0x12).string .stos .byte

def betweenFill : Executed FlatBus :=
  ⟨.string .stos .byte, betweenReturn.retire.syncTimer, betweenFilled⟩

def betweenHistory : List (Happening FlatBus) :=
  [.executed ⟨.repeatPrefix .whileZero, betweenStart.syncTimer, betweenPrefix⟩,
    .event ⟨.entry (some 1), betweenServed, betweenHandler⟩,
    .executed ⟨.iret, betweenHandler.syncTimer, betweenReturn⟩,
    .event ⟨.ret, betweenHandler.syncTimer.setIp 1, betweenReturn⟩,
    .executed betweenFill]

theorem step_betweenStart :
    betweenStart.step = .ok betweenHandler ∧
      betweenStart.happenings =
        [.executed ⟨.repeatPrefix .whileZero, betweenStart.syncTimer, betweenPrefix⟩,
          .event ⟨.entry (some 1), betweenServed, betweenHandler⟩] := by
  have stands : betweenStart.syncTimer.Stands (.repeatPrefix .whileZero) := by decide
  have vector : Bus.readFar betweenServed.bus (vectorAddress 9) = (0, 0) := by decide
  have found : betweenServed.handler 9 = .ok (0, 0) := by
    rw [Cpu.handler_of_lenient rfl, vector]
    rfl
  have pending : Bus.pendingIrq betweenPrefix.retire.bus =
      (some ⟨9, 1⟩, betweenPrefix.retire.bus.takeIrq.2) := rfl
  constructor
  · rw [Cpu.step_of_stands rfl stands rfl]
    exact Cpu.betweenInstructions_of_accepted rfl (Cpu.serviceIrq_of_handler pending found)
  · have events : betweenStart.stepEvents =
        [⟨.entry (some 1), betweenServed, betweenHandler⟩] := by
      rw [Cpu.stepEvents_of_stands rfl stands rfl]
      exact Cpu.betweenEvents_of_handler (c := betweenPrefix.retire) rfl pending found false
    rw [Cpu.happenings_of_stands rfl stands rfl, events]
    rfl

theorem step_betweenHandler :
    betweenHandler.step = .ok betweenReturn.retire ∧
      betweenHandler.happenings =
        [.executed ⟨.iret, betweenHandler.syncTimer, betweenReturn⟩,
          .event ⟨.ret, betweenHandler.syncTimer.setIp 1, betweenReturn⟩] := by
  have stands : betweenHandler.syncTimer.Stands .iret := by decide
  have on : betweenReturn.retire.regs.flags.interrupt = true := by decide
  have queue : betweenReturn.retire.bus.irqQueue = [] := by decide
  have pending := FlatBus.pendingIrq_of_empty queue
  constructor
  · rw [Cpu.step_of_stands rfl stands rfl]
    exact Cpu.betweenInstructions_of_idle on (Cpu.serviceIrq_of_none pending) false
  · have events : betweenHandler.stepEvents =
        [⟨.ret, betweenHandler.syncTimer.setIp 1, betweenReturn⟩] := by
      rw [Cpu.stepEvents_of_stands rfl stands rfl]
      exact congrArg _ (Cpu.betweenEvents_of_none on pending false)
    rw [Cpu.happenings_of_stands rfl stands rfl, events]
    rfl

theorem step_betweenReturn :
    betweenReturn.retire.step = .ok betweenFilled.retire ∧
      betweenReturn.retire.happenings = [.executed betweenFill] := by
  have stands : betweenReturn.retire.syncTimer.Stands (.string .stos .byte) := by decide
  have on : betweenFilled.retire.regs.flags.interrupt = true := by decide
  have queue : betweenFilled.retire.bus.irqQueue = [] := by decide
  have off : betweenReturn.retire.regs.flags.trap = false := by decide
  have place : betweenReturn.retire.regs.ip + 1 = 0x12 := by decide
  have done : (betweenReturn.retire.syncTimer.setIp (betweenReturn.retire.regs.ip + 1)).exec
      (.string .stos .byte) = .ok betweenFilled := by
    rw [place]
    rfl
  have pending := FlatBus.pendingIrq_of_empty queue
  constructor
  · rw [Cpu.step_of_stands rfl stands done, off]
    exact Cpu.betweenInstructions_of_idle on (Cpu.serviceIrq_of_none pending) false
  · have events : betweenReturn.retire.stepEvents = [] := by
      rw [Cpu.stepEvents_of_stands rfl stands done, off]
      exact Cpu.betweenEvents_of_none on pending false
    rw [Cpu.happenings_of_stands rfl stands done, events]
    rfl

theorem trace_betweenStart :
    Trace FlatBus.Requests betweenStart betweenHistory betweenFilled.retire :=
  ((Trace.refl.stepTo step_betweenStart).stepTo step_betweenHandler).stepTo step_betweenReturn

theorem fits_betweenHistory : Course.Along (Course.Fits []) {} betweenHistory :=
  ⟨nofun, fun _ => by decide, nofun, nofun, nofun, trivial⟩

theorem prefixes_follow_flow_keyboard :
    Trace FlatBus.Requests betweenStart betweenHistory betweenFilled.retire ∧
      (betweenStart.prefixes.segment = none ∧ betweenStart.prefixes.rep = none) ∧
      Course.Along (Course.Fits betweenStart.irqFrames) {} betweenHistory ∧
      Course.Along Course.Explains {} betweenHistory ∧
      betweenFill.before.prefixes.rep = some .whileZero :=
  ⟨trace_betweenStart, ⟨rfl, rfl⟩, fits_betweenHistory,
    prefixes_follow_flow trace_betweenStart ⟨rfl, rfl⟩ fits_betweenHistory, by decide⟩

/-- What an instruction would see if what comes after a repeated string instruction that has gone
back to its opcode were always that instruction again. -/
def Course.ExpectsSameOpcode (k : Course β) : Happening β → Prop
  | .executed x =>
    (∀ y ∈ k.flow.head?, y.rewinds = true → y.instr = x.instr →
      x.before.prefixes.segment = y.before.prefixes.segment ∧
        x.before.prefixes.rep = y.before.prefixes.rep) ∧
    ((∀ y ∈ k.flow.head?, y.rewinds = true → y.instr ≠ x.instr) →
      InForce (k.flow.takeWhile (·.instr.isPrefix)) x.before.prefixes)
  | .event _ => True

/-- A string instruction overwrites its own opcode by that of XLAT. -/
def overwriteStart : Cpu FlatBus where
  regs := { ip := 0x10, ax := 0xD7, cx := 2, di := 0x12 }
  bus := { memory := ((Memory.zero.set 0x10 0x26).set 0x11 0xF3).set 0x12 0xAA }
  config := .ofRatio .i8086 4 false

/-- The processor behind an instruction of one byte. -/
def behind (c : Cpu FlatBus) (i : Instr) : Cpu FlatBus :=
  ((c.syncTimer.setIp (c.regs.ip + 1)).exec i).cpu

theorem step_behind {c : Cpu FlatBus} {i : Instr} (running : c.halted = false)
    (stands : c.syncTimer.Stands i)
    (done : (c.syncTimer.setIp (c.regs.ip + 1)).exec i = .ok (behind c i))
    (silent : (c.syncTimer.setIp (c.regs.ip + 1)).instrEvents i = [])
    (off : (behind c i).regs.flags.interrupt = false) (noTrap : c.regs.flags.trap = false) :
    c.step = .ok (behind c i).retire ∧
      c.happenings = [.executed ⟨i, c.syncTimer, behind c i⟩] := by
  constructor
  · rw [Cpu.step_of_stands running stands done, noTrap]
    exact Cpu.betweenInstructions_of_off (c := (behind c i).retire) off false
  · have events : c.stepEvents = [] := by
      rw [Cpu.stepEvents_of_stands running stands done, silent, noTrap]
      exact Cpu.betweenEvents_of_off (c := (behind c i).retire) off false
    rw [Cpu.happenings_of_stands running stands done, events]
    rfl

def overwriteSegment : Cpu FlatBus := (behind overwriteStart (.segmentOverride .es)).retire

def overwriteRepeat : Cpu FlatBus := (behind overwriteSegment (.repeatPrefix .whileZero)).retire

def overwritten : Cpu FlatBus := (behind overwriteRepeat (.string .stos .byte)).retire

def overwriteHistory : List (Happening FlatBus) :=
  [.executed ⟨.segmentOverride .es, overwriteStart.syncTimer,
      behind overwriteStart (.segmentOverride .es)⟩,
    .executed ⟨.repeatPrefix .whileZero, overwriteSegment.syncTimer,
      behind overwriteSegment (.repeatPrefix .whileZero)⟩,
    .executed ⟨.string .stos .byte, overwriteRepeat.syncTimer,
      behind overwriteRepeat (.string .stos .byte)⟩,
    .executed ⟨.xlat, overwritten.syncTimer, behind overwritten .xlat⟩]

theorem trace_overwriteStart :
    Trace FlatBus.Requests overwriteStart overwriteHistory (behind overwritten .xlat).retire := by
  have segment := step_behind (c := overwriteStart) (i := .segmentOverride .es) rfl
    (by decide) rfl rfl (by decide) rfl
  have rep := step_behind (c := overwriteSegment) (i := .repeatPrefix .whileZero) rfl
    (by decide) rfl rfl (by decide) rfl
  have fill := step_behind (c := overwriteRepeat) (i := .string .stos .byte) rfl
    (by decide) rfl rfl (by decide) (by decide)
  have xlat := step_behind (c := overwritten) (i := .xlat) (by decide)
    (by decide) rfl rfl (by decide) (by decide)
  exact (((Trace.refl.stepTo segment).stepTo rep).stepTo fill).stepTo xlat

/-- Without any interrupt a prefix can be in force for an instruction that is neither a string
instruction nor behind a prefix. -/
theorem override_after_overwrite :
    Trace FlatBus.Requests overwriteStart overwriteHistory (behind overwritten .xlat).retire ∧
      overwriteStart.prefixes = {} ∧ overwriteStart.irqFrames = [] ∧
      (∀ h ∈ overwriteHistory, ∃ x, h = .executed x ∧ x.instr ≠ .iret) ∧
      ¬ Course.Along Course.ExpectsSameOpcode {} overwriteHistory := by
  refine ⟨trace_overwriteStart, rfl, rfl, ?_, ?_⟩
  · intro h member
    simp only [overwriteHistory, List.mem_cons, List.not_mem_nil, or_false] at member
    rcases member with rfl | rfl | rfl | rfl <;> exact ⟨_, rfl, nofun⟩
  · rintro ⟨_, _, _, xlat, _⟩
    have other : ∀ y ∈ (Course.after {} (overwriteHistory.take 3)).flow.head?,
        y.rewinds = true → y.instr ≠ .xlat := by
      rintro y ⟨⟩
      exact nofun
    have expected : overwritten.syncTimer.prefixes.segment = none := (xlat.2 other).segment
    have actual : overwritten.syncTimer.prefixes.segment = some .es := by decide
    rw [actual] at expected
    cases expected

end RealMode
