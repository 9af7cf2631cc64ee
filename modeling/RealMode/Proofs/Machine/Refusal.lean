import RealMode.Proofs.Interrupt.Missing
import RealMode.Proofs.Machine.InService
import RealMode.Proofs.Pic.Requests

/-!
Refused requests. To look for an interrupt is to take its request from the controller; if the handler
then turns out to be missing, the line is ended again, which puts the controller back but for the
request itself. Nothing else is touched, and when the line is raised once more the interrupt is
accepted as if it had never been refused.
-/

namespace RealMode
namespace Pic

variable {p q : Pic} {line : UInt8}

theorem mem_lines_ofNat {n : Nat} (h : n < 8) : UInt8.ofNat n ∈ lines := by
  have each : ∀ n < 8, UInt8.ofNat n ∈ lines := by decide
  exact each n h

/-- A register is told by its lines. -/
theorem eq_of_holds {m n : UInt8} (same : ∀ line ∈ lines, holds m line = holds n line) : m = n := by
  apply UInt8.toNat_inj.1
  apply Nat.eq_of_testBit_eq
  intro i
  by_cases small : i < 8
  · have isLine := mem_lines_ofNat small
    have bits := same _ isLine
    rwa [holds_eq_testBit m isLine, holds_eq_testBit n isLine,
      UInt8.toNat_ofNat_of_lt' (Nat.lt_trans small (by decide))] at bits
  · have large : 2 ^ 8 ≤ 2 ^ i := Nat.pow_le_pow_right (by decide) (Nat.le_of_not_lt small)
    rw [Nat.testBit_lt_two_pow (Nat.lt_of_lt_of_le m.toNat_lt large),
      Nat.testBit_lt_two_pow (Nat.lt_of_lt_of_le n.toNat_lt large)]

theorem Deliverable.not_serves (due : p.Deliverable line) : p.serves line = false := by
  rw [Bool.eq_false_iff]
  exact fun busy => UInt8.lt_irrefl line (due.free line due.isLine busy)

/-- To end a line that has just been handed out takes it out of service and leaves its request
taken. -/
theorem HandsOut.endOfInterrupt (hands : p.HandsOut q line) (due : p.Deliverable line) :
    q.endOfInterrupt line = { p with request := q.request } := by
  have inService : (q.endOfInterrupt line).inService = p.inService := by
    refine eq_of_holds fun other isLine => ?_
    change (q.endOfInterrupt line).serves other = p.serves other
    rw [serves_endOfInterrupt q line isLine, hands.serves other isLine, and_seven due.isLine]
    by_cases same : other = line
    · rw [same, due.not_serves, bne_self_eq_false, Bool.and_false]
    · rw [beq_false_of_ne same, bne_iff_ne.2 same, Bool.or_false, Bool.and_true]
  have kept : q.endOfInterrupt line = { q with inService := (q.endOfInterrupt line).inService } := rfl
  rw [kept, inService, hands.rest]

theorem HandsOut.raise (hands : p.HandsOut q line) (due : p.Deliverable line) {raised : IrqLine}
    (number : raised.number = line) : { p with request := q.request }.raise raised = p := by
  have request : q.request ||| bit raised.number = p.request := by
    refine eq_of_holds fun other isLine => ?_
    rw [holds_bit_number q.request raised isLine, number]
    change (q.requests other || line == other) = p.requests other
    have wanted := (Bool.and_eq_true_iff.1 due.wanted).1
    rw [hands.requests other isLine]
    by_cases same : other = line
    · rw [same, wanted, beq_self_eq_true, Bool.or_true]
    · rw [bne_iff_ne.2 same, beq_false_of_ne (Ne.symm same), Bool.and_true, Bool.or_false]
  change { p with request := q.request ||| bit raised.number } = p
  rw [request]

/-- A line that nobody raises stays without a request. -/
theorem requests_foldl_perform {ops : List Op} (isLine : line ∈ lines)
    (quiet : ∀ raised, Op.raise raised ∈ ops → raised.number ≠ line)
    (clear : p.requests line = false) : (ops.foldl perform p).requests line = false := by
  refine List.foldlRecOn (motive := fun q => q.requests line = false) ops perform clear ?_
  intro q clear op member
  have unraised : Entry.raises ⟨op, q.handedOut op⟩ line = false := by
    cases op with
    | raise raised => exact beq_false_of_ne (quiet raised member)
    | _ => rfl
  rw [requests_perform q op isLine, unraised, clear, Bool.or_false, Bool.and_false]

end Pic

namespace Machine

variable {δ : Type} [PortDevice δ] {c done d : Cpu (PcBus δ)} {irq : PendingIrq}
  {e : MissingHandler}

/-- What the refusal of a request makes of a processor and its controller. -/
structure Forfeits (done d : Cpu (PcBus δ)) (irq : PendingIrq) : Prop where
  requested : done.bus.pic.requests irq.line = true
  requests : ∀ line ∈ Pic.lines,
    d.bus.pic.requests line = (done.bus.pic.requests line && line != irq.line)
  /-- All else is as it was, the lines in service among it. -/
  rest : d = { done with
    bus := { done.bus with pic := { done.bus.pic with request := d.bus.pic.request } } }
  /-- Until the line is raised again it is not requested. -/
  gone : ∀ ops : List Pic.Op, (∀ raised, .raise raised ∈ ops → raised.number ≠ irq.line) →
    (ops.foldl Pic.perform d.bus.pic).requests irq.line = false
  again : ∀ raised : IrqLine, raised.number = irq.line → d.bus.pic.raise raised = done.bus.pic

/-- The step delivers the request to the handler that its vector names. -/
def Delivers (x later : Cpu (PcBus δ)) (irq : PendingIrq) : Prop :=
  x.step = .ok ({ later with bus := later.bus.acknowledge.2 }.enterIrq irq
    (Bus.readFar later.bus (vectorAddress irq.vector)).swap)

theorem step_of_pending {x later : Cpu (PcBus δ)} (advanced : x.syncTimer.advance = .ok later)
    (on : later.regs.flags.interrupt = true) (due : later.bus.pic.acknowledge.1 = some irq) :
    (Bus.readFar later.bus (vectorAddress irq.vector) ≠ (0, 0) → Delivers x later irq) ∧
      ∀ {d e}, x.step = ⟨d, some e⟩ → e.vector = irq.vector ∧
        d = { later with bus := Bus.endOfInterrupt later.bus.acknowledge.2 irq.line } := by
  have pending : Bus.pendingIrq later.bus = (some irq, later.bus.acknowledge.2) :=
    Prod.ext due rfl
  have step : x.step = later.betweenInstructions x.syncTimer.armed := by
    rw [Cpu.step_eq, advanced, Outcome.ok_andThen]
  constructor
  · intro installed
    have found : { later with bus := later.bus.acknowledge.2 }.handler irq.vector =
        .ok (Bus.readFar later.bus (vectorAddress irq.vector)).swap :=
      Cpu.handler_of_ne_zero installed
    rw [Delivers, step]
    exact Cpu.betweenInstructions_of_accepted on (Cpu.serviceIrq_of_handler pending found)
  · intro d e failed
    rw [step] at failed
    cases found : { later with bus := later.bus.acknowledge.2 }.handler irq.vector with
    | ok target =>
        rw [Cpu.betweenInstructions_of_accepted on (Cpu.serviceIrq_of_handler pending found)]
          at failed
        cases failed
    | error missing =>
        rw [Cpu.betweenInstructions_of_refused on (Cpu.serviceIrq_of_missing pending found)]
          at failed
        cases failed
        exact ⟨(Cpu.NoHandler.of_error found).vector, rfl⟩

end Machine

open Machine

variable {δ : Type} [PortDevice δ] {c done d : Cpu (PcBus δ)} {irq : PendingIrq}
  {e : MissingHandler}

/-- A step that fails because it cannot deliver a request loses the request and nothing else. With
the line raised again and the handler in place, the next step that looks for interrupts delivers it. -/
theorem refusal_forfeits_request (advanced : c.syncTimer.advance = .ok done)
    (on : done.regs.flags.interrupt = true) (due : done.bus.pic.acknowledge.1 = some irq)
    (failed : c.step = ⟨d, some e⟩) :
    e.vector = irq.vector ∧ Forfeits done d irq ∧
      ∀ x later : Cpu (PcBus δ), x.syncTimer.advance = .ok later →
        later.regs.flags.interrupt = true →
        (∃ raised : IrqLine, raised.number = irq.line ∧
          later.bus.pic = d.bus.pic.raise raised) →
        Bus.readFar later.bus (vectorAddress irq.vector) ≠ (0, 0) → Delivers x later irq := by
  have deliverable := ((Pic.handedOut_iff _ irq).1 due).1
  have hands := Pic.handsOut_of_acknowledge due
  obtain ⟨vector, same⟩ := (step_of_pending advanced on due).2 failed
  have ended := hands.endOfInterrupt deliverable
  have pic : d.bus.pic = { done.bus.pic with request := done.bus.pic.acknowledge.2.request } := by
    rw [same]
    exact ended
  have requests : ∀ line ∈ Pic.lines,
      d.bus.pic.requests line = (done.bus.pic.requests line && line != irq.line) := by
    rw [pic]
    exact hands.requests
  have again : ∀ raised : IrqLine, raised.number = irq.line →
      d.bus.pic.raise raised = done.bus.pic := by
    rw [pic]
    exact fun raised number => hands.raise deliverable number
  refine ⟨vector, ⟨?_, requests, ?_, fun ops quiet => ?_, again⟩, ?_⟩
  · exact (Bool.and_eq_true_iff.1 deliverable.wanted).1
  · rw [pic, same]
    exact congrArg (fun pic => { done with bus := { done.bus with pic } }) ended
  · refine Pic.requests_foldl_perform deliverable.isLine quiet ?_
    rw [requests _ deliverable.isLine, bne_self_eq_false, Bool.and_false]
  · rintro x later advanced on ⟨raised, number, same⟩ installed
    rw [again raised number] at same
    exact (step_of_pending advanced on (by rw [same, due])).1 installed

/-- The history of a machine that does not accept empty vectors. -/
def strictConfig : Config := .ofRatio .i8086 4 true

def refusalHistory : List (Machine.Op Peripheral) :=
  [.loadProgram 0xFFFF ⟨#[0xFB]⟩, .raise .timer]

def refusedStart : Cpu (PcBus Peripheral) :=
  { timerStart with config := strictConfig }

/-- Interrupts have just been turned on. -/
def refusedReady : Cpu (PcBus Peripheral) :=
  { timerReady with config := strictConfig }

def refusedEnd : Cpu (PcBus Peripheral) :=
  { refusedReady with bus := Bus.endOfInterrupt refusedReady.bus.acknowledge.2 0 }

theorem after_refusalHistory : (after strictConfig refusalHistory).cpu = refusedStart := by
  rw [after, refusalHistory, List.foldl_cons, perform_loadProgram_byte]
  rfl

theorem advance_refusedStart : refusedStart.syncTimer.advance = .ok refusedReady := by
  have stands : refusedStart.syncTimer.Stands (.flag .setInterrupt) := stands_timerStart
  rw [Cpu.advance_of_stands rfl stands]
  rfl

theorem acknowledge_refusedReady : refusedReady.bus.pic.acknowledge.1 = some ⟨8, 0⟩ := by
  decide

theorem step_refusedStart : refusedStart.step = ⟨refusedEnd, some ⟨8⟩⟩ := by
  have pending : Bus.pendingIrq refusedReady.bus = (some ⟨8, 0⟩, refusedReady.bus.acknowledge.2) :=
    Prod.ext acknowledge_refusedReady rfl
  have empty : Bus.readFar refusedReady.bus.acknowledge.2 (vectorAddress 8) = (0, 0) := by
    decide
  have missing := Cpu.handler_of_empty
    (c := { refusedReady with bus := refusedReady.bus.acknowledge.2 }) rfl empty
  rw [Cpu.step_eq, advance_refusedStart, Outcome.ok_andThen]
  exact Cpu.betweenInstructions_of_refused rfl (Cpu.serviceIrq_of_missing pending missing) _

/-- The host has put the handler at 0000:0900 and raised the line again, and the processor waits. -/
def retriedStart : Cpu (PcBus Peripheral) :=
  { refusedEnd with
    bus := { refusedEnd.bus.raise .timer with memory := Memory.zero.writeWord 0x20 0x0900 }
    halted := true }

def retriedReady : Cpu (PcBus Peripheral) :=
  retriedStart.syncTimer.spend 4

theorem refusal_forfeits_request_timer :
    refusedStart.step = ⟨refusedEnd, some ⟨8⟩⟩ ∧
      refusedReady.bus.pic.acknowledge.1 = some ⟨8, 0⟩ ∧
      Forfeits refusedReady refusedEnd ⟨8, 0⟩ ∧ Delivers retriedStart retriedReady ⟨8, 0⟩ := by
  obtain ⟨_, forfeits, redelivers⟩ := refusal_forfeits_request advance_refusedStart rfl
    acknowledge_refusedReady step_refusedStart
  have installed : Bus.readFar retriedReady.bus (vectorAddress 8) ≠ (0, 0) := by decide
  have waits : retriedStart.syncTimer.advance = .ok retriedReady := Cpu.advance_of_halted rfl
  exact ⟨step_refusedStart, acknowledge_refusedReady, forfeits,
    redelivers retriedStart retriedReady waits rfl ⟨.timer, rfl, rfl⟩ installed⟩

/-- The request does not outlive its refusal. -/
theorem request_lost_in_refusal :
    ¬ ∀ (ops : List (Machine.Op Peripheral)) (done d : Cpu (PcBus Peripheral)) (irq : PendingIrq)
      (e : MissingHandler), (after strictConfig ops).cpu.syncTimer.advance = .ok done →
      done.regs.flags.interrupt = true → done.bus.pic.acknowledge.1 = some irq →
      (after strictConfig ops).cpu.step = ⟨d, some e⟩ →
      d.bus.pic.request = done.bus.pic.request ∧ d.bus.pic.inService = done.bus.pic.inService := by
  intro all
  have kept := (all refusalHistory refusedReady refusedEnd ⟨8, 0⟩ ⟨8⟩
    (by rw [after_refusalHistory]; exact advance_refusedStart) rfl acknowledge_refusedReady
    (by rw [after_refusalHistory]; exact step_refusedStart)).1
  have lost : refusedEnd.bus.pic.request ≠ refusedReady.bus.pic.request := by decide
  exact lost kept

end RealMode
