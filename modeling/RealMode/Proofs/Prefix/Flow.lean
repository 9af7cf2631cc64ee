import RealMode.Proofs.Interrupt.Nesting

/-!
The control flows of a run. Every instruction that is executed belongs to one flow: an entry starts
a new one, and the flow that a hardware interrupt breaks into is parked until the return with the
stack as the entry left it takes it up again.
-/

namespace RealMode

namespace Instr

def isPrefix : Instr → Bool
  | .segmentOverride _ | .repeatPrefix _ | .lock => true
  | _ => false

def isString : Instr → Bool
  | .string _ _ => true
  | _ => false

def override? : Instr → Option SegReg
  | .segmentOverride seg => some seg
  | _ => none

def repeats? : Instr → Option RepeatMode
  | .repeatPrefix mode => some mode
  | _ => none

end Instr

/-- An instruction with the processor at its opcode and the processor when it is done. -/
structure Executed (β : Type) where
  instr : Instr
  before : Cpu β
  after : Cpu β

namespace Executed

variable {β : Type}

/-- Whether a repeated string instruction has gone back to its opcode. -/
def rewinds (x : Executed β) : Bool :=
  x.instr.isString && x.after.regs.ip == x.before.regs.ip

/-- Whether prefixes outlive the instruction. -/
def passesOn (x : Executed β) : Bool :=
  x.instr.isPrefix || x.rewinds

/-- Whether this is the return from that entry. -/
def Closes (x : Executed β) (e : Event β) : Prop :=
  x.instr = .iret ∧ x.before.regs.ss = e.after.regs.ss ∧ x.before.regs.sp = e.after.regs.sp

instance (x : Executed β) (e : Event β) : Decidable (x.Closes e) :=
  inferInstanceAs (Decidable (_ ∧ _ ∧ _))

end Executed

inductive Happening (β : Type) where
  | executed (x : Executed β)
  | event (e : Event β)

/-- All that happens in a step, in its order. -/
def Cpu.happenings {β : Type} [Bus β] (c : Cpu β) : List (Happening β) :=
  (if c.halted then []
    else [.executed ⟨c.syncTimer.fetch.instr, c.syncTimer, c.syncTimer.dispatch.cpu⟩]) ++
  c.stepEvents.map .event

/-- A running processor at an instruction of one byte. -/
theorem Cpu.happenings_of_stands {β : Type} [Bus β] [MemoryBus β] {c d : Cpu β} {i : Instr}
    (running : c.halted = false) (h : c.syncTimer.Stands i)
    (done : (c.syncTimer.setIp (c.regs.ip + 1)).exec i = .ok d) :
    c.happenings = .executed ⟨i, c.syncTimer, d⟩ :: c.stepEvents.map .event := by
  have dispatched : c.syncTimer.dispatch = .ok d := by
    rw [dispatch, fetch_of_stands h]
    exact done
  rw [happenings, if_neg (Bool.eq_false_iff.1 running), dispatched, fetch_of_stands h]
  rfl

/-- Steps none of which breaks off, with the host at work between them. -/
inductive Trace {β : Type} [Bus β] (host : β → β → Prop) (start : Cpu β) :
    List (Happening β) → Cpu β → Prop
  | refl : Trace host start [] start
  | step {history : List (Happening β)} {c d : Cpu β} (h : Trace host start history c)
      (done : c.step = .ok d) : Trace host start (history ++ c.happenings) d
  | act {history : List (Happening β)} {c : Cpu β} (h : Trace host start history c) {bus : β}
      (act : host c.bus bus) : Trace host start history { c with bus }

theorem Trace.stepTo {β : Type} [Bus β] {host : β → β → Prop} {start c d : Cpu β}
    {history more : List (Happening β)} (h : Trace host start history c)
    (done : c.step = .ok d ∧ c.happenings = more) : Trace host start (history ++ more) d := by
  have next := h.step done.1
  rwa [done.2] at next

/-- The flow that is being executed, the newest instruction first, and those that hardware
interrupts have broken into, the innermost first. -/
structure Course (β : Type) where
  flow : List (Executed β) := []
  parked : List (Event β × List (Executed β)) := []

namespace Course

variable {β : Type}

def next (k : Course β) : Happening β → Course β
  | .executed x =>
    match k.parked with
    | (e, flow) :: outer => if x.Closes e then ⟨flow, outer⟩ else { k with flow := x :: k.flow }
    | [] => { k with flow := x :: k.flow }
  | .event e =>
    match e.kind with
    | .entry (some _) => ⟨[], (e, k.flow) :: k.parked⟩
    | .entry none => { k with flow := [] }
    | .ret | .refusal _ => k

def after (k : Course β) (history : List (Happening β)) : Course β :=
  history.foldl next k

/-- Whether each happening is as it should be where it comes. -/
def Along (p : Course β → Happening β → Prop) : Course β → List (Happening β) → Prop
  | _, [] => True
  | k, h :: history => p k h ∧ Along p (k.next h) history

theorem along_append {p : Course β → Happening β → Prop} {k : Course β}
    {history more : List (Happening β)} :
    k.Along p (history ++ more) ↔ k.Along p history ∧ (k.after history).Along p more := by
  induction history generalizing k with
  | nil => exact (and_iff_right trivial).symm
  | cons h history ih =>
      have rest : (k.next h).Along p (history ++ more) ↔
          (k.next h).Along p history ∧ ((k.next h).after history).Along p more := ih
      exact (and_congr_right fun _ => rest).trans and_assoc.symm

theorem after_append (k : Course β) (history more : List (Happening β)) :
    k.after (history ++ more) = (k.after history).after more :=
  List.foldl_append

variable {k : Course β} {x : Executed β}

theorem next_of_closes {e : Event β} {flow : List (Executed β)}
    {outer : List (Event β × List (Executed β))} (parked : k.parked = (e, flow) :: outer)
    (closes : x.Closes e) : k.next (.executed x) = ⟨flow, outer⟩ := by
  rw [next, parked]
  exact if_pos closes

theorem next_of_not_closes (open_ : ∀ p ∈ k.parked.head?, ¬ x.Closes p.1) :
    k.next (.executed x) = { k with flow := x :: k.flow } := by
  rw [next]
  cases parked : k.parked with
  | nil => rfl
  | cons p outer => exact if_neg (open_ p (by rw [parked]; rfl))

end Course
end RealMode
