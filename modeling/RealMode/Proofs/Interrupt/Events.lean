import RealMode.Proofs.Bus.Ended
import RealMode.Proofs.Cpu.Acceptance
import RealMode.Proofs.Cpu.Fetch

/-!
Entries and returns of a run. Every step is cut into the events that concern interrupts, each with
the states around it, and what lies between them, where neither a frame comes or goes nor an
interrupt ends. A step has up to two events: one of its instruction and one after it.
-/

namespace RealMode

/-- Entries that belong to a hardware interrupt have a line. A refused interrupt is none. -/
inductive EventKind where
  | entry (line : Option UInt8)
  | ret
  | refusal (line : UInt8)
  deriving DecidableEq

structure Event (β : Type) where
  kind : EventKind
  before : Cpu β
  after : Cpu β

/-- An interrupt out of an instruction, with the clocks spent around the entry. -/
structure Raised where
  vector : UInt8
  before : Nat := 0
  after : Nat := 0

variable {β : Type}

/-- What happens in an event. -/
def Event.Sound [Bus β] (e : Event β) : Prop :=
  match e.kind with
  | .entry none => ∃ target mask, e.after = e.before.enterInterrupt target mask
  | .entry (some line) => ∃ vector target, e.after = e.before.enterIrq ⟨vector, line⟩ target
  | .ret => e.after = e.before.returnFromInterrupt
  | .refusal line => e.after = { e.before with bus := Bus.endOfInterrupt e.before.bus line }

namespace Cpu

theorem andThen_spend_zero (o : Outcome β) : (o.andThen fun c => .ok (c.spend 0)) = o := by
  obtain ⟨c, missing⟩ := o
  cases missing <;> rfl

variable [Bus β]

def quotient? (c : Cpu β) (signed : Bool) (w : Width) (rm : Operand) : Option Quotient :=
  if signed then Quotient.signed? w (dividend c.regs w) (c.load w (c.locate rm))
  else Quotient.unsigned? w (dividend c.regs w) (c.load w (c.locate rm))

theorem div_eq (c : Cpu β) (signed : Bool) (w : Width) (rm : Operand) :
    c.div signed w rm =
      match c.quotient? signed w rm with
      | some q => .ok { c.spend (divClocks signed w rm) with regs := withQuotient c.regs w q }
      | none => (c.spend (divClocks signed w rm)).raise Exception.divideError.vector := rfl

/-- The interrupt that an instruction raises. -/
def raised? (c : Cpu β) : Instr → Option Raised
  | .unknown =>
    if c.config.variant = .i80186 then some ⟨Exception.invalidOpcode.vector, 0, 0⟩ else none
  | .div signed w rm =>
    if (c.quotient? signed w rm).isNone then
      some ⟨Exception.divideError.vector, divClocks signed w rm, 0⟩
    else none
  | .aam base =>
    if (c.regs.flags.aam c.regs.al base).isNone then some ⟨Exception.divideError.vector, 83, 0⟩
    else none
  | .bound reg m =>
    let (lower, upper) := Bus.readFar c.bus (c.address m)
    let index := (c.regs.read .word reg).toInt16
    if index < lower.toInt16 ∨ upper.toInt16 < index then
      some ⟨Exception.boundRange.vector, 13 + m.clocks, 0⟩
    else none
  | .int3 => some ⟨Exception.breakpoint.vector, 0, 1⟩
  | .int vector => some ⟨vector, 0, 0⟩
  | .into => if c.regs.flags.overflow then some ⟨Exception.overflow.vector, 0, 6⟩ else none
  | .escape rm =>
    if c.config.variant = .i80186 then
      some ⟨Exception.coprocessorUnavailable.vector, rm.cost 2 8, 0⟩
    else none
  | _ => none

/-- All that such an instruction does is raise the interrupt and take its time. -/
theorem exec_of_raised {c : Cpu β} {i : Instr} {r : Raised} (h : c.raised? i = some r) :
    c.exec i = ((c.spend r.before).raise r.vector).andThen fun c => .ok (c.spend r.after) := by
  cases i with
  | unknown =>
      obtain ⟨on80186, same⟩ := Option.ite_none_right_eq_some.1 h
      cases same
      rw [andThen_spend_zero, exec, unknown, on80186]
      rfl
  | div signed w rm =>
      obtain ⟨tooLarge, same⟩ := Option.ite_none_right_eq_some.1 h
      cases same
      rw [andThen_spend_zero, exec, div_eq, Option.isNone_iff_eq_none.1 tooLarge]
  | aam base =>
      obtain ⟨byZero, same⟩ := Option.ite_none_right_eq_some.1 h
      cases same
      have none : (c.spend 83).regs.flags.aam (c.spend 83).regs.al base = none :=
        Option.isNone_iff_eq_none.1 byZero
      rw [andThen_spend_zero, exec, aam]
      dsimp only
      rw [none]
  | bound reg m =>
      obtain ⟨outside, same⟩ := Option.ite_none_right_eq_some.1 h
      cases same
      rw [andThen_spend_zero, exec]
      exact if_pos outside
  | int3 =>
      cases h
      rfl
  | int vector =>
      cases h
      exact (andThen_spend_zero _).symm
  | into =>
      obtain ⟨overflow, same⟩ := Option.ite_none_right_eq_some.1 h
      cases same
      rw [exec, into, if_pos overflow]
      rfl
  | escape rm =>
      obtain ⟨on80186, same⟩ := Option.ite_none_right_eq_some.1 h
      cases same
      have variant : (c.spend (rm.cost 2 8)).config.variant = .i80186 := on80186
      rw [andThen_spend_zero, exec, escape]
      dsimp only
      rw [variant]
  | _ => cases h

def entryEvents (c : Cpu β) (vector : UInt8) (mask : Flags → Flags) : List (Event β) :=
  match c.handler vector with
  | .ok target => [⟨.entry none, c, c.enterInterrupt target mask⟩]
  | .error _ => []

def instrEvents (c : Cpu β) (i : Instr) : List (Event β) :=
  if i = .iret then [⟨.ret, c, c.returnFromInterrupt⟩]
  else
    match c.raised? i with
    | some r => (c.spend r.before).entryEvents r.vector id
    | none => []

def advanceEvents (c : Cpu β) : List (Event β) :=
  if c.halted then [] else c.fetched.instrEvents c.fetch.instr

def irqEvents (c : Cpu β) : List (Event β) :=
  match Bus.pendingIrq c.bus with
  | (none, _) => []
  | (some irq, bus) =>
    let c := { c with bus }
    match c.handler irq.vector with
    | .ok target => [⟨.entry (some irq.line), c, c.enterIrq irq target⟩]
    | .error _ => [⟨.refusal irq.line, c, { c with bus := Bus.endOfInterrupt c.bus irq.line }⟩]

def trapEvents (c : Cpu β) (armed : Bool) : List (Event β) :=
  if armed && !c.prefixes.isPending then
    c.entryEvents Exception.singleStep.vector Flags.maskInterrupts
  else []

def betweenEvents (c : Cpu β) (armed : Bool) : List (Event β) :=
  if c.regs.flags.interrupt then
    match c.serviceIrq with
    | .idle d => d.trapEvents armed
    | .accepted _ | .refused _ _ => c.irqEvents
  else c.trapEvents armed

section

variable {c : Cpu β} {bus : β}

theorem betweenEvents_of_off (off : c.regs.flags.interrupt = false) (armed : Bool) :
    c.betweenEvents armed = c.trapEvents armed := by
  rw [betweenEvents, if_neg (by rw [off]; exact Bool.false_ne_true)]

theorem betweenEvents_of_none (on : c.regs.flags.interrupt = true)
    (out : Bus.pendingIrq c.bus = (none, bus)) (armed : Bool) :
    c.betweenEvents armed = { c with bus }.trapEvents armed := by
  rw [betweenEvents, if_pos on, serviceIrq_of_none out]

theorem betweenEvents_of_handler (on : c.regs.flags.interrupt = true) {irq : PendingIrq}
    (out : Bus.pendingIrq c.bus = (some irq, bus)) {target : UInt16 × UInt16}
    (found : { c with bus }.handler irq.vector = .ok target) (armed : Bool) :
    c.betweenEvents armed =
      [⟨.entry (some irq.line), { c with bus }, { c with bus }.enterIrq irq target⟩] := by
  rw [betweenEvents, if_pos on, serviceIrq_of_handler out found]
  simp only [irqEvents, out, found]

theorem betweenEvents_of_missing (on : c.regs.flags.interrupt = true) {irq : PendingIrq}
    (out : Bus.pendingIrq c.bus = (some irq, bus)) {e : MissingHandler}
    (missing : { c with bus }.handler irq.vector = .error e) (armed : Bool) :
    c.betweenEvents armed =
      [⟨.refusal irq.line, { c with bus }, { c with bus := Bus.endOfInterrupt bus irq.line }⟩] := by
  rw [betweenEvents, if_pos on, serviceIrq_of_missing out missing]
  simp only [irqEvents, out, missing]

end

/-- The events of a step, in their order. -/
def stepEvents (c : Cpu β) : List (Event β) :=
  c.syncTimer.advanceEvents ++
    match c.syncTimer.advance with
    | ⟨d, none⟩ => d.betweenEvents c.syncTimer.armed
    | ⟨_, some _⟩ => []

theorem stepEvents_of_stands [MemoryBus β] {c d : Cpu β} {i : Instr} (running : c.halted = false)
    (h : c.syncTimer.Stands i) (done : (c.syncTimer.setIp (c.regs.ip + 1)).exec i = .ok d) :
    c.stepEvents = (c.syncTimer.setIp (c.regs.ip + 1)).instrEvents i ++
      d.retire.betweenEvents c.regs.flags.trap := by
  have isRunning : ¬ c.syncTimer.halted = true := Bool.eq_false_iff.1 running
  rw [stepEvents, advanceEvents, if_neg isRunning, fetched, fetch_of_stands h,
    advance_of_done (c := c.syncTimer) running h done, armed_of_running (c := c.syncTimer) running]
  rfl

end Cpu

variable [Bus β]

/-- Nothing here concerns an interrupt in service. -/
structure Quiet (host : β → β → Prop) (c d : Cpu β) : Prop where
  irqFrames : d.irqFrames = c.irqFrames
  bus : Bus.Ended host c.bus [] d.bus

namespace Quiet

variable {host : β → β → Prop} {c d e : Cpu β}

theorem refl (c : Cpu β) : Quiet host c c :=
  ⟨rfl, .refl⟩

theorem trans (h : Quiet host c d) (g : Quiet host d e) : Quiet host c e :=
  ⟨g.irqFrames.trans h.irqFrames, h.bus.trans g.bus⟩

theorem of_steady (h : Cpu.Steady c d) : Quiet host c d :=
  ⟨h.irqFrames, Bus.Ended.refl.access h.bus⟩

theorem syncTimer (c : Cpu β) : Quiet host c c.syncTimer :=
  ⟨rfl, Bus.Ended.refl.ticks c.ticksOwed⟩

end Quiet

/-- From one state to another through events, with quiet between them. -/
inductive Linked (host : β → β → Prop) : Cpu β → List (Event β) → Cpu β → Prop
  | done {c d : Cpu β} (quiet : Quiet host c d) : Linked host c [] d
  | next {c d : Cpu β} {e : Event β} {events : List (Event β)} (quiet : Quiet host c e.before)
      (sound : e.Sound) (rest : Linked host e.after events d) : Linked host c (e :: events) d

namespace Linked

variable {host : β → β → Prop} {c d e : Cpu β} {events more : List (Event β)}

theorem before (quiet : Quiet host c d) (h : Linked host d events e) : Linked host c events e := by
  cases h with
  | done later => exact .done (quiet.trans later)
  | next later sound rest => exact .next (quiet.trans later) sound rest

theorem append (h : Linked host c events d) (g : Linked host d more e) :
    Linked host c (events ++ more) e := by
  induction h with
  | done quiet => exact g.before quiet
  | next quiet sound _ ih => exact .next quiet sound (ih g)

theorem single {event : Event β} (quiet : Quiet host c event.before) (sound : event.Sound)
    (later : Quiet host event.after d) : Linked host c [event] d :=
  .next quiet sound (.done later)

end Linked

namespace Cpu

variable {host : β → β → Prop}

theorem linked_interrupt (c : Cpu β) (host : β → β → Prop) (vector : UInt8) (mask : Flags → Flags) :
    Linked host c (c.entryEvents vector mask) (c.interrupt vector mask).cpu := by
  unfold entryEvents interrupt
  cases c.handler vector with
  | ok target => exact .single (.refl c) ⟨target, mask, rfl⟩ (.refl _)
  | error _ => exact .done (.refl c)

theorem linked_exec (c : Cpu β) (host : β → β → Prop) (i : Instr) :
    Linked host c (c.instrEvents i) (c.exec i).cpu := by
  rw [instrEvents]
  split
  next isReturn =>
    rw [isReturn]
    exact .single (.refl c) rfl (.refl _)
  next notReturn =>
    cases raised : c.raised? i with
    | none => exact .done (.of_steady (c.steady_exec notReturn))
    | some r =>
        rw [exec_of_raised raised]
        have entered := (c.spend r.before).linked_interrupt host r.vector id
        change Linked host _ _ ((c.spend r.before).raise r.vector).cpu at entered
        have spent : Quiet host c (c.spend r.before) := .of_steady ((Steady.refl c).spend _)
        generalize (c.spend r.before).raise r.vector = o at entered
        obtain ⟨d, missing⟩ := o
        cases missing with
        | none =>
            have later : Linked host d [] (d.spend r.after) :=
              .done (.of_steady ((Steady.refl d).spend _))
            have all := (entered.append later).before spent
            rwa [List.append_nil] at all
        | some _ => exact entered.before spent

theorem linked_advance (c : Cpu β) (host : β → β → Prop) :
    Linked host c c.advanceEvents c.advance.cpu := by
  rw [advanceEvents]
  by_cases halted : c.halted = true
  · rw [if_pos halted, advance_of_halted halted]
    exact .done (.of_steady ((Steady.refl c).spend _))
  · rw [if_neg halted, advance_of_running (Bool.eq_false_iff.2 halted)]
    have fetched : Quiet host c c.fetched := .of_steady ((Steady.refl c).setIp _)
    have done := c.fetched.linked_exec host c.fetch.instr
    generalize c.fetched.exec c.fetch.instr = o at done
    obtain ⟨d, missing⟩ := o
    cases missing with
    | none =>
        have later : Linked host d [] d.retire := .done ⟨rfl, .refl⟩
        have all := (done.append later).before fetched
        rwa [List.append_nil] at all
    | some _ => exact done.before fetched

theorem linked_trapIf (c : Cpu β) (armed : Bool) :
    Linked host c (c.trapEvents armed) (c.trapIf armed).cpu := by
  unfold trapEvents trapIf
  split
  · exact c.linked_interrupt _ _ _
  · exact .done (.refl c)

theorem linked_between (c : Cpu β) (armed : Bool) :
    Linked host c (c.betweenEvents armed) (c.betweenInstructions armed).cpu := by
  cases on : c.regs.flags.interrupt with
  | false =>
      rw [betweenEvents_of_off on, betweenInstructions_of_off on]
      exact c.linked_trapIf armed
  | true =>
      cases pending : Bus.pendingIrq c.bus with
      | mk irq? bus =>
          have asked : Quiet host c { c with bus } := by
            refine ⟨rfl, ?_⟩
            have polled : Bus.Ended host c.bus [] (Bus.pendingIrq c.bus).2 :=
              Bus.Ended.refl.pendingIrq
            rwa [pending] at polled
          cases irq? with
          | none =>
              rw [betweenEvents_of_none on pending,
                betweenInstructions_of_idle on (serviceIrq_of_none pending)]
              exact (linked_trapIf _ armed).before asked
          | some irq =>
              cases found : { c with bus }.handler irq.vector with
              | ok target =>
                  rw [betweenEvents_of_handler on pending found,
                    betweenInstructions_of_accepted on (serviceIrq_of_handler pending found)]
                  exact .single asked ⟨irq.vector, target, rfl⟩ (.refl _)
              | error missing =>
                  rw [betweenEvents_of_missing on pending found,
                    betweenInstructions_of_refused on (serviceIrq_of_missing pending found)]
                  exact .single asked rfl (.refl _)

theorem linked_step (c : Cpu β) : Linked host c c.stepEvents c.step.cpu := by
  have advanced := c.syncTimer.linked_advance host
  rw [stepEvents, step_eq]
  cases result : c.syncTimer.advance with
  | mk d missing =>
      rw [result] at advanced
      cases missing with
      | none => exact (advanced.append (d.linked_between _)).before (.syncTimer c)
      | some _ =>
          dsimp only
          rw [List.append_nil]
          exact advanced.before (.syncTimer c)

end Cpu

/-- Steps, some of which may break off, with the host at work between them. -/
inductive Run (host : β → β → Prop) (start : Cpu β) : List (Event β) → Cpu β → Prop
  | refl : Run host start [] start
  | step {events : List (Event β)} {c : Cpu β} (h : Run host start events c) :
      Run host start (events ++ c.stepEvents) c.step.cpu
  | act {events : List (Event β)} {c : Cpu β} (h : Run host start events c) {bus : β}
      (act : host c.bus bus) : Run host start events { c with bus }

theorem Run.stepTo {host : β → β → Prop} {start c d : Cpu β} {events more : List (Event β)}
    (h : Run host start events c) (done : c.step = .ok d ∧ c.stepEvents = more) :
    Run host start (events ++ more) d := by
  have next := h.step
  rwa [done.1, done.2] at next

theorem Run.linked {host : β → β → Prop} {start final : Cpu β} {events : List (Event β)}
    (h : Run host start events final) : Linked host start events final := by
  induction h with
  | refl => exact .done (.refl start)
  | @step _ c _ ih => exact ih.append c.linked_step
  | @act events c _ bus act ih =>
      have acted : Linked host c [] { c with bus } := .done ⟨rfl, Bus.Ended.refl.act act⟩
      have all := ih.append acted
      rwa [List.append_nil] at all

end RealMode
