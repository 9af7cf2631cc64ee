import RealMode.Proofs.Interrupt.Frame
import RealMode.Proofs.Machine.Halting
import RealMode.Proofs.Machine.InService
import RealMode.Proofs.Pic.Requests

/-!
What a halted processor does. It lets the time of one tick go by with every step until a request is
delivered, and while it waits nothing changes but the clock, the timer and the requests that come
in. The first step that finds a deliverable request enters its handler, which is to return behind
the halt instruction. With interrupts off there is no such step.
-/

namespace RealMode
namespace PcBus

variable {δ : Type} {b d e : PcBus δ}

/-- `d` comes from `b` by requests and by the time that goes by. No request is lost. -/
structure Requested (b d : PcBus δ) : Prop where
  rest : d = { b with pic := { b.pic with request := d.pic.request }, pit := d.pit }
  requests : ∀ line ∈ Pic.lines, b.pic.requests line = true → d.pic.requests line = true

namespace Requested

theorem refl (b : PcBus δ) : Requested b b :=
  ⟨rfl, fun _ _ => id⟩

theorem trans (h : Requested b d) (g : Requested d e) : Requested b e where
  rest := by
    have rest := g.rest
    rw [h.rest] at rest
    exact rest
  requests line isLine := g.requests line isLine ∘ h.requests line isLine

theorem raise (b : PcBus δ) (raised : IrqLine) : Requested b (b.raise raised) where
  rest := rfl
  requests line isLine requested := by
    have kept := Pic.holds_bit_number b.pic.request raised isLine
    change Pic.holds b.pic.request line = true at requested
    rw [requested, Bool.true_or] at kept
    exact kept

variable [PortDevice δ]

theorem tick (b : PcBus δ) : Requested b (Bus.tick b) := by
  have timed : Requested b { b with pit := b.pit.tick.2 } := ⟨rfl, fun _ _ => id⟩
  change Requested b { b with
    pit := b.pit.tick.2, pic := if b.pit.tick.1 then b.pic.raise .timer else b.pic }
  split
  · exact timed.trans (raise _ .timer)
  · exact timed

theorem ticks (b : PcBus δ) (n : Nat) : Requested b (Bus.ticks b n) := by
  induction n generalizing b with
  | zero => exact refl b
  | succ n ih => exact (tick b).trans (ih (Bus.tick b))

end Requested

theorem pendingIrq_of_acknowledge [PortDevice δ] {irq : Option PendingIrq} {pic : Pic}
    (answer : b.pic.acknowledge = (irq, pic)) : Bus.pendingIrq b = (irq, { b with pic }) := by
  change b.acknowledge = _
  rw [acknowledge, answer]

theorem pendingIrq_of_idle [PortDevice δ] (idle : b.pic.acknowledge = (none, b.pic)) :
    Bus.pendingIrq b = (none, b) :=
  pendingIrq_of_acknowledge idle

end PcBus

namespace Cpu

section

variable {β : Type} [Bus β] {c : Cpu β}

theorem step_of_halted (halted : c.halted = true) :
    c.step = (c.syncTimer.spend c.config.timerRatio).betweenInstructions false := by
  have unarmed : c.syncTimer.armed = false := by
    rw [armed, show c.syncTimer.halted = true from halted]
    rfl
  rw [step_eq, advance_of_halted (c := c.syncTimer) halted, unarmed]
  rfl

theorem step_of_nothing (halted : c.halted = true)
    (nothing : c.regs.flags.interrupt = true →
      Bus.pendingIrq c.syncTimer.bus = (none, c.syncTimer.bus)) :
    c.step = .ok (c.syncTimer.spend c.config.timerRatio) := by
  rw [step_of_halted halted]
  exact betweenInstructions_of_nothing nothing false

theorem step_of_stopped (stopped : c.stopped = true) :
    c.step = .ok (c.syncTimer.spend c.config.timerRatio) := by
  obtain ⟨halted, off⟩ := Bool.and_eq_true_iff.1 stopped
  refine step_of_nothing halted fun on => ?_
  rw [on] at off
  cases off

end

variable {δ : Type} {c d e origin : Cpu (PcBus δ)} {line : UInt8}

/-- `d` comes from `c` by so many waits, with requests between them. -/
structure Rests (c d : Cpu (PcBus δ)) (n : Nat) : Prop where
  halted : d.halted = true
  bus : PcBus.Requested c.bus d.bus
  rest : d = { c with
    bus := d.bus
    clock := c.clock + n * c.config.timerRatio
    lastTimerTick := d.lastTimerTick
    timerTicks := d.timerTicks }

namespace Rests

theorem refl (halted : c.halted = true) : Rests c c 0 :=
  ⟨halted, .refl _, by rw [Nat.zero_mul]; rfl⟩

theorem trans {n m : Nat} (h : Rests c d n) (g : Rests d e m) : Rests c e (n + m) where
  halted := g.halted
  bus := h.bus.trans g.bus
  rest := by
    have rest := g.rest
    rw [h.rest] at rest
    rw [Nat.add_mul, ← Nat.add_assoc]
    exact rest

theorem regs {n : Nat} (h : Rests c d n) : d.regs = c.regs := by
  rw [h.rest]

theorem raise (halted : c.halted = true) (raised : IrqLine) :
    Rests c { c with bus := c.bus.raise raised } 0 :=
  ⟨halted, .raise _ raised, by rw [Nat.zero_mul]; rfl⟩

theorem wait [PortDevice δ] (halted : c.halted = true) :
    Rests c (c.syncTimer.spend c.config.timerRatio) 1 :=
  ⟨halted, .ticks _ _, by rw [Nat.one_mul]; rfl⟩

end Rests

variable [PortDevice δ]

/-- Nothing is deliverable when the ticks that are due have been paid. -/
def Undelivered (c : Cpu (PcBus δ)) : Prop :=
  ∀ line, ¬ c.syncTimer.bus.pic.Deliverable line

theorem step_of_undelivered (halted : c.halted = true)
    (undelivered : c.regs.flags.interrupt = true → c.Undelivered) :
    c.step = .ok (c.syncTimer.spend c.config.timerRatio) := by
  refine step_of_nothing halted fun on => ?_
  exact PcBus.pendingIrq_of_idle (Pic.acknowledge_of_not_deliverable (undelivered on))

/-- Where the handler of a line begins. -/
def entry (c : Cpu (PcBus δ)) (line : UInt8) : UInt16 × UInt16 :=
  (Bus.readFar c.bus (vectorAddress (c.bus.pic.vectorOffset + line))).swap

/-- An empty vector is a handler as well, unless the processor does not accept that. -/
def Handles (c : Cpu (PcBus δ)) (line : UInt8) : Prop :=
  c.config.strictVectors = false ∨ c.entry line ≠ (0, 0)

/-- A step from `d` to `e` in which the request of a line ends the halt of `origin`. What is pushed
for the return stands behind the halt instruction. -/
structure Wakes (d e origin : Cpu (PcBus δ)) (line : UInt8) : Prop where
  halted : e.halted = false
  regs : e.regs = { d.regs with
    sp := d.regs.sp - 6
    cs := (d.entry line).1
    ip := (d.entry line).2
    flags := d.regs.flags.maskInterrupts }
  memory : e.bus.memory = d.bus.memory.pushFrame { origin.regs with ip := origin.regs.ip + 1 }
  irqFrames : e.irqFrames =
    (⟨d.regs.ss, d.regs.sp - 6, line, d.irqContext⟩ :: d.irqFrames).take maxIrqFrames
  pic : d.syncTimer.bus.pic.HandsOut e.bus.pic line
  clock : e.clock = d.clock + d.config.timerRatio + 51
  instructions : e.instructions = d.instructions

theorem handler_of_handles (handles : c.Handles line) (config : d.config = c.config)
    (memory : d.bus.memory = c.bus.memory) :
    d.handler (c.bus.pic.vectorOffset + line) = .ok (c.entry line) := by
  have same : Bus.readFar d.bus (vectorAddress (c.bus.pic.vectorOffset + line)) =
      Bus.readFar c.bus (vectorAddress (c.bus.pic.vectorOffset + line)) :=
    MemoryBus.readFar_congr memory _
  rw [entry, ← same]
  rcases handles with lenient | installed
  · exact handler_of_lenient (by rw [config, lenient]) _
  · refine handler_of_ne_zero fun empty => installed ?_
    rw [entry, ← same, empty]
    rfl

/-- The processor that has waited once more when the controller has handed out a request. -/
def answered (c : Cpu (PcBus δ)) (pic : Pic) : Cpu (PcBus δ) :=
  { c.syncTimer.spend c.config.timerRatio with bus := { c.syncTimer.bus with pic } }

theorem step_of_deliverable (halted : c.halted = true) (on : c.regs.flags.interrupt = true)
    (due : c.syncTimer.bus.pic.Deliverable line) (handles : c.Handles line) :
    ∃ pic, c.syncTimer.bus.pic.HandsOut pic line ∧
      c.step = .ok ((c.answered pic).enterIrq ⟨c.bus.pic.vectorOffset + line, line⟩
        (c.entry line)) := by
  obtain ⟨pic, answer, hands⟩ := Pic.acknowledge_of_deliverable due
  have offset : c.syncTimer.bus.pic.vectorOffset = c.bus.pic.vectorOffset :=
    congrArg (fun b => b.pic.vectorOffset) (PcBus.Requested.ticks c.bus c.ticksOwed).rest
  rw [offset] at answer
  have found : (c.answered pic).handler (c.bus.pic.vectorOffset + line) = .ok (c.entry line) :=
    handler_of_handles handles rfl c.memory_syncTimer
  have asks : (c.syncTimer.spend c.config.timerRatio).regs.flags.interrupt = true := on
  have accepted := serviceIrq_of_handler (c := c.syncTimer.spend c.config.timerRatio)
    (PcBus.pendingIrq_of_acknowledge answer) found
  refine ⟨pic, hands, ?_⟩
  rw [step_of_halted halted]
  exact betweenInstructions_of_accepted asks accepted

theorem wakes_enterIrq {pic : Pic} (hands : c.syncTimer.bus.pic.HandsOut pic line)
    (behind : c.regs = { origin.regs with ip := origin.regs.ip + 1 }) (vector : UInt8) :
    Wakes c ((c.answered pic).enterIrq ⟨vector, line⟩ (c.entry line)) origin line where
  halted := rfl
  regs := (c.answered pic).regs_enterIrq _ _
  memory := by
    have kept : (c.answered pic).bus.memory = c.bus.memory := c.memory_syncTimer
    have regs : (c.answered pic).regs = c.regs := rfl
    have pushed : _ = (c.answered pic).bus.memory.pushFrame (c.answered pic).regs :=
      (c.answered pic).memory_enterIrq ⟨vector, line⟩ (c.entry line)
    rw [kept, regs, behind] at pushed
    exact pushed
  irqFrames := (c.answered pic).irqFrames_enterIrq _ _
  pic := hands
  clock := rfl
  instructions := rfl

end Cpu

namespace Machine

open Cpu (Rests Wakes)

variable {δ : Type} [PortDevice δ] {m : Machine δ} {steps waits : List (Cpu (PcBus δ))}
  {d origin : Cpu (PcBus δ)}

/-- A step, or a request by the host. -/
def Op.isWait : Op δ → Bool
  | .step | .raise _ => true
  | _ => false

/-- As long as nothing is delivered the halt goes on, whatever is requested meanwhile. -/
theorem rests_of_undelivered {acts : List (Op δ)} (allWait : ∀ op ∈ acts, op.isWait = true)
    (halted : m.cpu.halted = true) (onTime : m.cpu.OnTime) (halt : Halt steps m.cpu origin waits)
    (undelivered : m.cpu.regs.flags.interrupt = true →
      ∀ c ∈ m.stepStarts acts, c.Undelivered) :
    Rests m.cpu (acts.foldl perform m).cpu (m.stepStarts acts).length ∧
      Halt (steps ++ m.stepStarts acts) (acts.foldl perform m).cpu origin
        (waits ++ m.stepStarts acts) := by
  -- The halt is carried along: a step adds one wait to it, a request none.
  induction acts generalizing m steps waits with
  | nil =>
      rw [stepStarts, List.append_nil, List.append_nil]
      exact ⟨.refl halted, halt⟩
  | cons op acts ih =>
      have others : ∀ op ∈ acts, op.isWait = true := fun op member =>
        allWait op (List.mem_cons_of_mem _ member)
      cases op with
      | step =>
          have all : m.stepStarts (.step :: acts) = m.cpu :: (m.perform .step).stepStarts acts := rfl
          rw [all] at undelivered ⊢
          have waited : m.cpu.step = _ := Cpu.step_of_undelivered halted fun on =>
            undelivered on _ List.mem_cons_self
          have rests : Rests m.cpu (m.perform .step).cpu 1 := by
            change Rests m.cpu m.cpu.step.cpu 1
            rw [waited]
            exact .wait halted
          have later := ih (m := m.perform .step) others rests.halted onTime.step
            (halt.wait onTime halted rests.halted) fun on c member =>
              undelivered (by rwa [rests.regs] at on) c (List.mem_cons_of_mem _ member)
          rw [List.append_cons steps, List.append_cons waits, List.length_cons, Nat.add_comm]
          exact ⟨rests.trans later.1, later.2⟩
      | raise raised =>
          have all : m.stepStarts (.raise raised :: acts) =
            (m.perform (.raise raised)).stepStarts acts := rfl
          rw [all] at undelivered ⊢
          have rests : Rests m.cpu (m.perform (.raise raised)).cpu 0 := .raise halted raised
          have later := ih (m := m.perform (.raise raised)) others rests.halted
            ⟨onTime.paid, onTime.earned⟩ (halt.withBus _) undelivered
          rw [← Nat.zero_add (List.length _)]
          exact ⟨rests.trans later.1, later.2⟩
      | _ => cases allWait _ List.mem_cons_self

/-- What the next step makes of a processor that has halted at `origin` and waited since. -/
structure Next (d origin : Cpu (PcBus δ)) (waits : List (Cpu (PcBus δ))) : Prop where
  instructions : d.step.cpu.instructions = d.instructions
  clock : d.step.cpu.halted = true → d.step.cpu.clock = d.clock + d.config.timerRatio
  ticks : waits ≠ [] →
    d.step.cpu.timerTicks = d.timerTicks + 1 ∧ Bus.Ticked Eq d.bus 1 d.step.cpu.bus
  rests : (d.regs.flags.interrupt = true → d.Undelivered) → ∃ e, d.step = .ok e ∧ Rests d e 1
  wakes : d.regs.flags.interrupt = true →
    ∀ line, d.syncTimer.bus.pic.Deliverable line → d.Handles line →
      ∃ e, d.step = .ok e ∧ Wakes d e origin line

theorem Halt.next (halt : Halt steps d origin waits) (halted : d.halted = true) :
    Next d origin waits where
  instructions := Cpu.instructions_of_halted halted
  clock asleep := by
    obtain ⟨bus, waited⟩ := Cpu.step_of_asleep halted asleep
    rw [waited]
    rfl
  ticks waited := by
    have work := d.unpaid_step Eq
    have paid : d.syncTimer.timerTicks = d.timerTicks + d.ticksOwed := rfl
    have ticked : Bus.Ticked Eq d.bus (0 + d.ticksOwed) d.syncTimer.bus := Bus.Ticked.refl.ticks _
    have all := ticked.trans work.bus
    rw [halt.owed waited] at paid all
    exact ⟨work.timerTicks.trans paid, all⟩
  rests undelivered := ⟨_, Cpu.step_of_undelivered halted undelivered, .wait halted⟩
  wakes on line due handles := by
    obtain ⟨pic, hands, woken⟩ := Cpu.step_of_deliverable halted on due handles
    exact ⟨_, woken, Cpu.wakes_enterIrq hands (halt.regs on) _⟩

/-- A halted processor waits at the cost of one tick for each step, and nothing that a program sees
changes. It wakes in the first step that finds a deliverable request, with the instruction behind
the halt to return to, and never with interrupts off. -/
theorem halt_protocol {config : Config} {ops acts : List (Op δ)}
    (halted : (after config ops).cpu.halted = true) (allWait : ∀ op ∈ acts, op.isWait = true)
    (undelivered : (after config ops).cpu.regs.flags.interrupt = true →
      ∀ c ∈ (after config ops).stepStarts acts, c.Undelivered) :
    Rests (after config ops).cpu (after config (ops ++ acts)).cpu
        ((after config ops).stepStarts acts).length ∧
      ∃ origin waits, Halt ((ofConfig config).stepStarts ops) (after config ops).cpu origin waits ∧
        Next (after config (ops ++ acts)).cpu origin
          (waits ++ (after config ops).stepStarts acts) := by
  have accounted := accounted_after config ops
  obtain ⟨origin, waits, halt⟩ := accounted.halt halted
  have all : after config (ops ++ acts) = acts.foldl perform (after config ops) := by
    rw [after, List.foldl_append, ← after]
  obtain ⟨rests, later⟩ :=
    rests_of_undelivered allWait halted accounted.onTime halt undelivered
  rw [all]
  exact ⟨rests, origin, waits, halt, later.next rests.halted⟩

/-- A program that turns interrupts on and one that halts, both at the boot vector. -/
def dozingHistory : List (Op Peripheral) :=
  [.loadProgram 0xFFFF ⟨#[0xFB]⟩, .step, .loadProgram 0xFFFF ⟨#[0xF4]⟩, .setEntry 0xFFFF 0, .step]

def dozingStart : Cpu (PcBus Peripheral) where
  bus := { memory := Memory.zero.set bootVector 0xFB }
  config := .ofRatio .i8086 4 false

def dozingOn : Cpu (PcBus Peripheral) :=
  ((dozingStart.syncTimer.setIp 1).flag .setInterrupt).retire

def dozingReady : Cpu (PcBus Peripheral) :=
  { dozingOn.setIp 0 with
    bus := { dozingOn.bus with memory := dozingOn.bus.memory.set bootVector 0xF4 } }

def dozingHalted : Cpu (PcBus Peripheral) :=
  (dozingReady.syncTimer.setIp 1).halt.retire

theorem step_dozingStart : dozingStart.step = .ok dozingOn := by
  have stands : dozingStart.syncTimer.Stands (.flag .setInterrupt) := Cpu.stands_of_set rfl rfl
  have nothing : dozingOn.bus.pic.acknowledge = (none, dozingOn.bus.pic) := rfl
  rw [Cpu.step_of_stands rfl stands rfl]
  exact Cpu.betweenInstructions_of_nothing (fun _ => PcBus.pendingIrq_of_idle nothing) false

theorem step_dozingReady : dozingReady.step = .ok dozingHalted := by
  have stands : dozingReady.syncTimer.Stands .hlt := Cpu.stands_of_set rfl rfl
  have nothing : dozingHalted.bus.pic.acknowledge = (none, dozingHalted.bus.pic) := rfl
  rw [Cpu.step_of_stands rfl stands rfl]
  exact Cpu.betweenInstructions_of_nothing (fun _ => PcBus.pendingIrq_of_idle nothing) false

theorem after_dozingHistory : after {} dozingHistory = { cpu := dozingHalted } := by
  have start : (ofConfig {}).perform (.loadProgram 0xFFFF ⟨#[0xFB]⟩) = { cpu := dozingStart } :=
    perform_loadProgram_byte _ _
  have on : ({ cpu := dozingStart } : Machine Peripheral).perform .step = { cpu := dozingOn } := by
    rw [perform, step_dozingStart]
    rfl
  have ready : (({ cpu := dozingOn } : Machine Peripheral).perform
      (.loadProgram 0xFFFF ⟨#[0xF4]⟩)).perform (.setEntry 0xFFFF 0) = { cpu := dozingReady } := by
    rw [perform_loadProgram_byte]
    rfl
  have halted : ({ cpu := dozingReady } : Machine Peripheral).perform .step =
      { cpu := dozingHalted } := by
    rw [perform, step_dozingReady]
    rfl
  rw [after, dozingHistory, List.foldl_cons, start, List.foldl_cons, on, List.foldl_cons,
    List.foldl_cons, ready, List.foldl_cons, halted, List.foldl_nil]

/-- One wait, and then a request of the keyboard. -/
def dozingActs : List (Op Peripheral) :=
  [.step, .raise .keyboard]

def dozingRequested : Cpu (PcBus Peripheral) :=
  { dozingHalted.syncTimer.spend 4 with
    bus := (dozingHalted.syncTimer.spend 4).bus.raise .keyboard }

theorem undelivered_dozingHalted : dozingHalted.Undelivered := by
  intro line due
  have none : dozingHalted.syncTimer.bus.pic.deliverable Pic.lines = none := by decide +kernel
  rw [(Pic.deliverable_lines_iff _ _).2 due] at none
  cases none

theorem after_dozingActs :
    after {} (dozingHistory ++ dozingActs) = { cpu := dozingRequested } := by
  have waited : dozingHalted.step = _ :=
    Cpu.step_of_undelivered rfl fun _ => undelivered_dozingHalted
  rw [after, List.foldl_append, ← after, after_dozingHistory, dozingActs, List.foldl_cons, perform,
    waited]
  rfl

theorem due_dozingRequested : dozingRequested.syncTimer.bus.pic.Deliverable 1 :=
  (Pic.deliverable_lines_iff _ _).1 (by decide +kernel)

/-- The keyboard wakes the processor, and its handler is to return to FFFF:0001. -/
theorem halt_protocol_keyboard :
    (after {} dozingHistory).cpu.halted = true ∧ (∀ op ∈ dozingActs, op.isWait = true) ∧
      (∀ c ∈ (after {} dozingHistory).stepStarts dozingActs, c.Undelivered) ∧
      ∃ e, (after {} (dozingHistory ++ dozingActs)).cpu.step = .ok e ∧ e.halted = false ∧
        e.bus.memory = dozingRequested.bus.memory.pushFrame
          { cs := 0xFFFF, ip := 1, flags := { interrupt := true } } := by
  have halted : (after {} dozingHistory).cpu.halted = true := by
    rw [after_dozingHistory]
    rfl
  have allWait : ∀ op ∈ dozingActs, op.isWait = true := by simp [dozingActs, Op.isWait]
  have undelivered : ∀ c ∈ (after {} dozingHistory).stepStarts dozingActs, c.Undelivered := by
    intro c member
    rw [after_dozingHistory] at member
    rw [List.mem_singleton.1 (show c ∈ [dozingHalted] from member)]
    exact undelivered_dozingHalted
  obtain ⟨_, origin, waits, halt, next⟩ := halt_protocol halted allWait fun _ => undelivered
  rw [after_dozingHistory] at halt
  rw [after_dozingActs] at next
  obtain ⟨e, step, wakes⟩ := next.wakes rfl 1 due_dozingRequested (.inl rfl)
  refine ⟨halted, allWait, undelivered, e, ?_, wakes.halted, ?_⟩
  · rw [after_dozingActs]
    exact step
  · rw [wakes.memory, ← halt.regs rfl]
    rfl

end Machine
end RealMode
