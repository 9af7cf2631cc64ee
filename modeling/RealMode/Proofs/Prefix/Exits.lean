import RealMode.Proofs.Cpu.Reachable
import RealMode.Proofs.Interrupt.Missing
import RealMode.Proofs.Prefix.Lifetime

/-!
The prefixes in force at the exits of a step. An instruction that breaks off drops none of its
prefixes, so that they change what is executed next. A hardware interrupt sets the segment override
and the repeat mode aside, but not the lock, which the handler finds if it has outlived the
instruction before the entry.
-/

namespace RealMode

variable {β : Type}

namespace Executed

/-- Whether this is the return from the innermost hardware interrupt. -/
def EndsIrq (x : Executed β) : Prop :=
  x.instr = .iret ∧ ∃ frame ∈ x.before.irqFrames.head?, x.before.atIrqFrame frame

/-- Whether a lock outlives the instruction. -/
def LeavesLock (x : Executed β) : Prop :=
  (x.instr = .lock ∨ x.before.prefixes.lock = true) ∧ (x.passesOn = true ∨ x.EndsIrq)

theorem not_leavesLock {x : Executed β} (drops : x.passesOn = false) (notReturn : x.instr ≠ .iret) :
    ¬ x.LeavesLock := by
  rintro ⟨-, passes | ends⟩
  · rw [drops] at passes
    cases passes
  · exact notReturn ends.1

end Executed

theorem Prefixes.lock_retire_of_keep {p : Prefixes} (keep : p.keep = true) :
    p.retire.lock = p.lock := by
  rw [retire, keep]
  rfl

section

variable [Bus β] {before after : Cpu β}

theorem lock_retire_string (done : before.dispatch = .ok after) {op : StringOp} {w : Width}
    (isString : before.fetch.instr = .string op w) (fresh : before.prefixes.keep = false) :
    after.prefixes.retire.lock = true ↔
      Executed.LeavesLock ⟨.string op w, before, after⟩ := by
  change before.fetched.exec before.fetch.instr = .ok after at done
  rw [isString] at done
  cases done
  have place := Cpu.ip_fetched_of_string isString
  rcases before.fetched.prefixes_string op w with ⟨ip, kept⟩ | ⟨ip, kept⟩
  · have drops : Executed.passesOn ⟨.string op w, before, before.fetched.string op w⟩ = false := by
      change (_ == before.regs.ip) = false
      rw [ip, place, beq_eq_false_iff_ne]
      exact (ne_succ _).symm
    have none : (before.fetched.string op w).prefixes.retire = {} :=
      Prefixes.retire_of_not_keep (by rw [kept]; exact fresh)
    rw [none]
    exact iff_of_false Bool.false_ne_true (Executed.not_leavesLock drops nofun)
  · have back : (before.fetched.string op w).regs.ip = before.regs.ip := by
      rw [ip, place, UInt16.add_sub_cancel]
    have same : (before.fetched.string op w).prefixes.retire.lock = before.prefixes.lock :=
      (Prefixes.lock_retire_of_keep (by rw [kept])).trans (by rw [kept]; rfl)
    rw [same]
    refine ⟨fun lock => ⟨.inr lock, .inl (beq_iff_eq.2 back)⟩, ?_⟩
    rintro ⟨isLock | lock, -⟩
    · cases isLock
    · exact lock

theorem lock_retire_iret (done : before.dispatch = .ok after)
    (isReturn : before.fetch.instr = .iret) (fresh : before.prefixes.keep = false) :
    after.prefixes.retire.lock = true ↔ Executed.LeavesLock ⟨.iret, before, after⟩ := by
  change before.fetched.exec before.fetch.instr = .ok after at done
  rw [isReturn] at done
  cases done
  by_cases ends : ∃ frame ∈ before.irqFrames.head?, before.atIrqFrame frame
  · obtain ⟨frame, isHead, here⟩ := ends
    obtain ⟨outer, frames⟩ := List.head?_eq_some_iff.1 isHead
    rw [Cpu.returnFromInterrupt_of_atIrqFrame (c := before.fetched) frames here]
    change before.prefixes.lock = true ↔ _
    refine ⟨fun lock => ⟨.inr lock, .inr ⟨rfl, frame, isHead, here⟩⟩, ?_⟩
    rintro ⟨isLock | lock, -⟩
    · cases isLock
    · exact lock
  · have elsewhere : ∀ frame ∈ before.irqFrames.head?, ¬ before.atIrqFrame frame :=
      fun frame isHead here => ends ⟨frame, isHead, here⟩
    rw [Cpu.returnFromInterrupt_of_not_atIrqFrame (c := before.fetched) elsewhere,
      (Cpu.plain_popFrame _).prefixes]
    change before.prefixes.retire.lock = true ↔ _
    rw [Prefixes.retire_of_not_keep fresh]
    refine iff_of_false Bool.false_ne_true ?_
    rintro ⟨-, passes | closes⟩
    · cases passes
    · exact ends closes.2

/-- When an instruction is done, the lock is in force just if it outlives that instruction. -/
theorem lock_retire (done : before.dispatch = .ok after) (fresh : before.prefixes.keep = false) :
    after.prefixes.retire.lock = true ↔
      Executed.LeavesLock ⟨before.fetch.instr, before, after⟩ := by
  have executed : before.fetched.exec before.fetch.instr = .ok after := done
  by_cases plain : before.fetch.instr.isPlain = true
  · have kept := (before.fetched.plain_exec plain).prefixes
    rw [executed] at kept
    change after.prefixes = before.prefixes at kept
    have notReturn : before.fetch.instr ≠ .iret := by
      intro isReturn
      rw [isReturn] at plain
      cases plain
    rw [kept, Prefixes.retire_of_not_keep fresh]
    exact iff_of_false Bool.false_ne_true
      (Executed.not_leavesLock (Executed.passesOn_of_isPlain plain) notReturn)
  · cases instr : before.fetch.instr with
    | iret => exact lock_retire_iret done instr fresh
    | string op w => exact lock_retire_string done instr fresh
    | hlt =>
        rw [instr] at executed
        cases executed
        change before.prefixes.retire.lock = true ↔ _
        rw [Prefixes.retire_of_not_keep fresh]
        exact iff_of_false Bool.false_ne_true (Executed.not_leavesLock rfl nofun)
    | segmentOverride | repeatPrefix =>
        rw [instr] at executed
        cases executed
        change before.prefixes.lock = true ↔ _
        exact ⟨fun lock => ⟨.inr lock, .inl rfl⟩, fun leaves => leaves.1.resolve_left nofun⟩
    | lock =>
        rw [instr] at executed
        cases executed
        exact iff_of_true rfl ⟨.inl rfl, .inl rfl⟩
    | _ => exact absurd (by rw [instr]; rfl) plain

end

variable [Bus β] {c d : Cpu β}

namespace Cpu

/-- The next step executes an instruction, and does so under these prefixes. -/
def ExecutesUnder (c : Cpu β) (p : Prefixes) : Prop :=
  c.halted = false ∧ c.syncTimer.fetched.prefixes = p

/-- An instruction that breaks off ends its step, and leaves its prefixes as they were. -/
theorem step_of_broken {e : MissingHandler} (running : c.halted = false)
    (broken : c.syncTimer.dispatch = ⟨d, some e⟩) :
    c.step = ⟨d, some e⟩ ∧ d.halted = false ∧ d.prefixes = c.prefixes := by
  have all := c.stepped
  generalize c.stepEvents = events at all
  generalize c.step = o at all ⊢
  cases all with
  | idle halted =>
      rw [running] at halted
      cases halted
  | cycle _ done =>
      rw [broken] at done
      cases done
  | broken _ failed =>
      rw [broken] at failed
      cases failed
      exact ⟨rfl, running, rfl⟩

/-- Where a hardware interrupt has been accepted, only a lock is left of the prefixes that were in
force just before. -/
theorem Boundary.prefixes_of_accepted {armed : Bool} {events : List (Event β)}
    (between : Boundary c armed events (.ok d)) {line : UInt8}
    (accepted : ∃ e ∈ events, e.kind = .entry (some line)) :
    d.halted = false ∧ d.prefixes = { c.prefixes with segment := none, rep := none } := by
  obtain ⟨e, member, kind⟩ := accepted
  cases between with
  | nothing => cases member
  | trap =>
      obtain rfl := List.mem_singleton.1 member
      cases kind
  | accepted => exact ⟨rfl, rfl⟩

/-- The events of an instruction are none of a hardware interrupt. -/
theorem Execution.not_accepted {i : Instr} {events : List (Event β)} {o : Outcome β}
    (executed : Execution c i events o) (line : UInt8) :
    ¬ ∃ e ∈ events, e.kind = .entry (some line) := by
  rintro ⟨e, member, kind⟩
  cases executed with
  | works | missing => cases member
  | returns | raises =>
      obtain rfl := List.mem_singleton.1 member
      cases kind

end Cpu

open Cpu

/-- What an accepted interrupt leaves of the prefixes. -/
theorem prefixes_of_accepted (rested : c.Rested) (done : c.step = .ok d) {line : UInt8}
    (accepted : ∃ e ∈ c.stepEvents, e.kind = .entry (some line)) :
    d.halted = false ∧ d.prefixes.segment = none ∧ d.prefixes.rep = none ∧
      d.prefixes.keep = false ∧
      (d.prefixes.lock = true ↔ ∃ x, .executed x ∈ c.happenings ∧ x.LeavesLock) := by
  have all := c.stepped
  rw [done] at all
  unfold happenings
  generalize c.stepEvents = events at all accepted ⊢
  cases all with
  | idle halted between =>
      obtain ⟨running, left⟩ := between.prefixes_of_accepted accepted
      change d.prefixes = { c.prefixes with segment := none, rep := none } at left
      rw [rested.halted halted] at left
      rw [if_pos halted, left]
      refine ⟨running, rfl, rfl, rfl, iff_of_false Bool.false_ne_true ?_⟩
      rintro ⟨x, member, -⟩
      obtain ⟨e, -, isEvent⟩ := List.mem_map.1 member
      cases isEvent
  | @cycle during after finished _ running origin executed between =>
      have later : ∃ e ∈ after, e.kind = .entry (some line) := by
        obtain ⟨e, member, kind⟩ := accepted
        rcases List.mem_append.1 member with member | member
        · exact absurd ⟨e, member, kind⟩ (executed.not_accepted line)
        · exact ⟨e, member, kind⟩
      obtain ⟨awake, left⟩ := between.prefixes_of_accepted later
      have lock := lock_retire origin rested.keep
      rw [if_neg (Bool.eq_false_iff.1 running), origin, left]
      refine ⟨awake, rfl, rfl, keep_retire _, ?_⟩
      change finished.prefixes.retire.lock = true ↔ _
      rw [lock]
      refine ⟨fun leaves => ⟨_, List.mem_cons_self, leaves⟩, ?_⟩
      rintro ⟨x, member, leaves⟩
      rcases List.mem_cons.1 member with same | member
      · cases same
        exact leaves
      · obtain ⟨e, -, isEvent⟩ := List.mem_map.1 member
        cases isEvent

/-- An instruction that breaks off hands all its prefixes on to the next one, whatever the host does
in between. The first instruction of a handler that a hardware interrupt has entered runs without a
prefix, except for a lock that has outlived the instruction before the entry. -/
theorem prefixes_at_exits (reachable : Reachable c) :
    (∀ (d : Cpu β) (e : MissingHandler), c.halted = false → c.syncTimer.dispatch = ⟨d, some e⟩ →
      c.step = ⟨d, some e⟩ ∧
      ∀ (regs : Registers) (bus : β), ExecutesUnder { d with regs, bus } c.prefixes) ∧
    (∀ d line, c.step = .ok d → (∃ e ∈ c.stepEvents, e.kind = .entry (some line)) →
      d.ExecutesUnder { lock := d.prefixes.lock } ∧
      (d.prefixes.isPending = true ↔ ∃ x, .executed x ∈ c.happenings ∧ x.LeavesLock)) := by
  refine ⟨fun d e running broken => ?_, fun d line done accepted => ?_⟩
  · obtain ⟨failed, awake, kept⟩ := step_of_broken running broken
    exact ⟨failed, fun regs bus => ⟨awake, kept⟩⟩
  · obtain ⟨awake, segment, rep, keep, lock⟩ :=
      prefixes_of_accepted reachable.rested done accepted
    have left : d.prefixes = { lock := d.prefixes.lock } := by
      rw [Prefixes.mk.injEq]
      exact ⟨segment, rep, rfl, keep⟩
    refine ⟨⟨awake, left⟩, ?_⟩
    rw [← lock, left]
    rfl

/-- A breakpoint without a handler, behind a segment override. -/
def abortStart : Cpu FlatBus where
  regs := { ip := 0x10 }
  bus := { memory := (Memory.zero.set 0x10 0x26).set 0x11 0xCC }
  config := .ofRatio .i8086 4 true

def abortBreak : Cpu FlatBus := (behind abortStart (.segmentOverride .es)).retire

def abortEnd : Cpu FlatBus := (abortBreak.syncTimer.setIp 0x12).spend 0

theorem reachable_abortBreak : Reachable abortBreak := by
  have start : Reachable abortStart :=
    (Reachable.powerOn abortStart.bus abortStart.config).host abortStart.regs abortStart.bus
  have stands : abortStart.syncTimer.Stands (.segmentOverride .es) := by decide
  exact start.stepTo (step_behind rfl stands rfl rfl rfl rfl).1

theorem dispatch_abortBreak : abortBreak.syncTimer.dispatch = ⟨abortEnd, some ⟨3⟩⟩ := by
  have stands : abortBreak.syncTimer.Stands .int3 := by decide
  have raised : (abortBreak.syncTimer.setIp 0x12).raised? .int3 = some ⟨3, 0, 1⟩ := rfl
  have empty : Bus.readFar abortEnd.bus (vectorAddress 3) = (0, 0) := by decide
  have missing : abortEnd.raise 3 = ⟨abortEnd, some ⟨3⟩⟩ :=
    raise_of_missing (handler_of_empty rfl empty)
  rw [dispatch, fetch_of_stands stands]
  change (abortBreak.syncTimer.setIp 0x12).exec .int3 = _
  rw [exec_of_raised raised]
  exact congrArg (fun o : Outcome FlatBus => o.andThen fun c => .ok (c.spend 1)) missing

theorem reachable_betweenStart : Reachable betweenStart :=
  (Reachable.powerOn betweenStart.bus betweenStart.config).host betweenStart.regs betweenStart.bus

theorem accepted_betweenStart : ∃ e ∈ betweenStart.stepEvents, e.kind = .entry (some 1) := by
  have happens : .event ⟨.entry (some 1), betweenServed, betweenHandler⟩ ∈
      betweenStart.happenings := by
    rw [step_betweenStart.2]
    exact List.mem_cons_of_mem _ List.mem_cons_self
  rcases List.mem_append.1 happens with instr | event
  · cases List.mem_singleton.1 instr
  · obtain ⟨e, member, same⟩ := List.mem_map.1 event
    exact ⟨e, member, congrArg Event.kind (Happening.event.inj same)⟩

theorem not_leavesLock_betweenStart :
    ¬ ∃ x, .executed x ∈ betweenStart.happenings ∧ x.LeavesLock := by
  rintro ⟨x, member, lock, -⟩
  rw [step_betweenStart.2] at member
  obtain rfl := Happening.executed.inj ((List.mem_cons.1 member).resolve_right nofun)
  rcases lock with isLock | lock
  · cases isLock
  · cases lock

theorem prefixes_at_exits_keyboard :
    Reachable abortBreak ∧ abortBreak.syncTimer.dispatch = ⟨abortEnd, some ⟨3⟩⟩ ∧
      abortEnd.ExecutesUnder { segment := some .es } ∧
      Reachable betweenStart ∧ betweenStart.step = .ok betweenHandler ∧
      betweenHandler.ExecutesUnder {} ∧ betweenHandler.prefixes.isPending = false := by
  obtain ⟨broken, -⟩ := prefixes_at_exits reachable_abortBreak
  obtain ⟨-, leaks⟩ := broken abortEnd ⟨3⟩ rfl dispatch_abortBreak
  obtain ⟨-, enters⟩ := prefixes_at_exits reachable_betweenStart
  obtain ⟨under, pending⟩ := enters betweenHandler 1 step_betweenStart.1 accepted_betweenStart
  exact ⟨reachable_abortBreak, dispatch_abortBreak, leaks abortEnd.regs abortEnd.bus,
    reachable_betweenStart, step_betweenStart.1, under,
    Bool.eq_false_iff.2 fun isPending => not_leavesLock_betweenStart (pending.1 isPending)⟩

/-- The keyboard comes between a lock and its instruction. -/
def lockStart : Cpu FlatBus where
  regs := { ip := 0x10, sp := 0x40, flags := { interrupt := true } }
  bus := { memory := Memory.zero.set 0x10 0xF0, irqQueue := [⟨9, 1⟩] }
  config := .ofRatio .i8086 4 false

def lockServed : Cpu FlatBus :=
  { (behind lockStart .lock).retire with bus := (behind lockStart .lock).bus.takeIrq.2 }

def lockHandler : Cpu FlatBus :=
  lockServed.enterIrq ⟨9, 1⟩ (0, 0)

theorem step_lockStart :
    lockStart.step = .ok lockHandler ∧
      lockStart.stepEvents = [⟨.entry (some 1), lockServed, lockHandler⟩] := by
  have stands : lockStart.syncTimer.Stands .lock := by decide
  have vector : Bus.readFar lockServed.bus (vectorAddress 9) = (0, 0) := by decide
  have found : lockServed.handler 9 = .ok (0, 0) := by
    rw [handler_of_lenient rfl, vector]
    rfl
  have pending : Bus.pendingIrq (behind lockStart .lock).retire.bus =
      (some ⟨9, 1⟩, (behind lockStart .lock).bus.takeIrq.2) := rfl
  constructor
  · rw [step_of_stands rfl stands rfl]
    exact betweenInstructions_of_accepted rfl (serviceIrq_of_handler pending found)
  · rw [stepEvents_of_stands rfl stands rfl]
    exact betweenEvents_of_handler (c := (behind lockStart .lock).retire) rfl pending found false

/-- A segment override outlives the instruction that it belongs to when that breaks off, and a lock
gets into the handler of a hardware interrupt. -/
theorem prefixes_leak :
    (Reachable abortBreak ∧ abortBreak.step = ⟨abortEnd, some ⟨3⟩⟩ ∧
      abortBreak.syncTimer.dispatch = ⟨abortEnd, some ⟨3⟩⟩ ∧
      abortBreak.prefixes.segment = some .es ∧
      abortEnd.syncTimer.fetched.prefixes.segment = some .es) ∧
    (Reachable lockStart ∧ lockStart.step = .ok lockHandler ∧
      (∃ e ∈ lockStart.stepEvents, e.kind = .entry (some 1)) ∧
      lockHandler.prefixes.isPending = true) := by
  refine ⟨⟨reachable_abortBreak, ?_, dispatch_abortBreak, rfl, rfl⟩, ?_, step_lockStart.1, ?_, rfl⟩
  · exact (step_of_broken rfl dispatch_abortBreak).1
  · exact (Reachable.powerOn lockStart.bus lockStart.config).host lockStart.regs lockStart.bus
  · rw [step_lockStart.2]
    exact ⟨_, List.mem_cons_self, rfl⟩

end RealMode
