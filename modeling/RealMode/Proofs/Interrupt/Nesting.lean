import RealMode.Proofs.Interrupt.Events
import RealMode.Proofs.Interrupt.Frame

/-!
Well-nested interrupts. A return is matched with a hardware interrupt by the top of the stack alone,
and yet, as long as handlers stay above the frames below them on one stack, it never meets the wrong
one: the stack tops of the open entries differ, the innermost being the deepest.
-/

namespace RealMode

open MemoryBus (memory)

def stackUse (top sp : UInt16) : Nat :=
  (top - sp).toNat

theorem stackUse_sub_six {top sp : UInt16} (room : stackUse top sp + 6 < 0x10000) :
    stackUse top (sp - 6) = stackUse top sp + 6 := by
  have six : (6 : UInt16).toNat = 6 := rfl
  have ht := top.toNat_lt
  have hs := sp.toNat_lt
  simp only [stackUse, UInt16.toNat_sub, six] at room ⊢
  omega

variable {β : Type}

namespace Event

/-- The line of an entry that belongs to a hardware interrupt. -/
def line? (e : Event β) : Option UInt8 :=
  match e.kind with
  | .entry line => line
  | .ret | .refusal _ => none

/-- What the processor remembers of an entry. -/
def frame? (e : Event β) : Option IrqFrame :=
  e.line?.map fun line => ⟨e.after.regs.ss, e.after.regs.sp, line, e.before.irqContext⟩

/-- What the processor remembers of the open entries, the innermost first. -/
def frames (opened : List (Event β)) : List IrqFrame :=
  opened.filterMap frame?

theorem frames_cons (e : Event β) (opened : List (Event β)) :
    frames (e :: opened) = e.frame?.toList ++ frames opened := by
  rw [frames, List.filterMap_cons]
  cases e.frame? <;> rfl

/-- An entry on the one stack in use, above the frames of the open entries. -/
structure Enters (segment top : UInt16) (opened : List (Event β)) (e : Event β) : Prop where
  segment : e.before.regs.ss = segment
  /-- All use of the stack stays below 64 KiB. -/
  room : stackUse top e.before.regs.sp + 6 < 0x10000
  /-- The handler that is entered from has its own frame still on the stack. -/
  above : ∀ inner ∈ opened.head?, stackUse top inner.after.regs.sp ≤ stackUse top e.before.regs.sp
  /-- The open hardware interrupts are not too many to be remembered. -/
  remembered : (frames (e :: opened)).length ≤ maxIrqFrames

variable [Bus β] [MemoryBus β]

/-- A return with the stack as the entry left it and with the frame of the entry intact. -/
structure Closes (e r : Event β) : Prop where
  ss : r.before.regs.ss = e.after.regs.ss
  sp : r.before.regs.sp = e.after.regs.sp
  ram : ∀ byte ∈ frameBytes e.before.regs.ss e.before.regs.sp, isRam byte
  unchanged : ∀ byte ∈ frameBytes e.before.regs.ss e.before.regs.sp,
    (memory r.before.bus).get byte = (memory e.after.bus).get byte

end Event

/-- Entries and returns pair off like brackets. -/
def WellNested [Bus β] [MemoryBus β] (segment top : UInt16) :
    List (Event β) → List (Event β) → Prop
  | _, [] => True
  | opened, e :: events =>
    match e.kind, opened with
    | .entry _, _ => e.Enters segment top opened ∧ WellNested segment top (e :: opened) events
    | .ret, inner :: outer => inner.Closes e ∧ WellNested segment top outer events
    | .ret, [] => False
    | .refusal _, _ => WellNested segment top opened events

/-- The returns, each with its entry. -/
def returns : List (Event β) → List (Event β) → List (Event β × Event β)
  | _, [] => []
  | opened, e :: events =>
    match e.kind, opened with
    | .entry _, _ => returns (e :: opened) events
    | .ret, inner :: outer => (inner, e) :: returns outer events
    | .ret, [] => returns [] events
    | .refusal _, _ => returns opened events

/-- The lines that end: each at the return from its own entry, or at once if it is refused. -/
def endedLines : List (Event β) → List (Event β) → List UInt8
  | _, [] => []
  | opened, e :: events =>
    match e.kind, opened with
    | .entry _, _ => endedLines (e :: opened) events
    | .ret, inner :: outer => inner.line?.toList ++ endedLines outer events
    | .ret, [] => endedLines [] events
    | .refusal line, _ => line :: endedLines opened events

variable [Bus β]

/-- A return takes back what its entry found. -/
structure Restores (e r : Event β) : Prop where
  regs : r.after.regs =
    { r.before.regs with
      cs := e.before.regs.cs
      ip := e.before.regs.ip
      sp := e.before.regs.sp
      flags := e.before.regs.flags }
  segment : e.line?.isSome → r.after.prefixes.segment = e.before.prefixes.segment
  rep : e.line?.isSome → r.after.prefixes.rep = e.before.prefixes.rep
  loopBounds : e.line?.isSome → r.after.loopBounds = e.before.loopBounds
  /-- An interrupt ends only with the return from its own entry. -/
  bus : r.after.bus =
    match e.line? with
    | some line => Bus.endOfInterrupt r.before.bus line
    | none => r.before.bus

namespace Event

structure IsEntry (e : Event β) : Prop where
  sound : e.Sound
  entry : ∃ line, e.kind = .entry line

namespace IsEntry

variable {e : Event β}

theorem regs (h : e.IsEntry) :
    e.after.regs.ss = e.before.regs.ss ∧ e.after.regs.sp = e.before.regs.sp - 6 := by
  obtain ⟨sound, line, kind⟩ := h
  rw [Sound, kind] at sound
  cases line with
  | none =>
      obtain ⟨target, mask, after⟩ := sound
      rw [after, Cpu.regs_enterInterrupt]
      exact ⟨rfl, rfl⟩
  | some line =>
      obtain ⟨vector, target, after⟩ := sound
      rw [after, Cpu.regs_enterIrq]
      exact ⟨rfl, rfl⟩

theorem memory_eq [MemoryBus β] (h : e.IsEntry) :
    memory e.after.bus = (memory e.before.bus).pushFrame e.before.regs := by
  obtain ⟨sound, line, kind⟩ := h
  rw [Sound, kind] at sound
  cases line with
  | none =>
      obtain ⟨target, mask, after⟩ := sound
      rw [after, Cpu.memory_enterInterrupt]
  | some line =>
      obtain ⟨vector, target, after⟩ := sound
      rw [after, Cpu.memory_enterIrq]

theorem irqFrames (h : e.IsEntry) {opened : List (Event β)}
    (remembered : (frames (e :: opened)).length ≤ maxIrqFrames)
    (before : e.before.irqFrames = frames opened) : e.after.irqFrames = frames (e :: opened) := by
  have place := h.regs
  obtain ⟨sound, line, kind⟩ := h
  have isLine : e.line? = line := by rw [line?, kind]
  rw [frames_cons, frame?, isLine] at remembered ⊢
  rw [Sound, kind] at sound
  cases line with
  | none =>
      obtain ⟨target, mask, after⟩ := sound
      rw [after]
      exact before
  | some line =>
      obtain ⟨vector, target, after⟩ := sound
      rw [place.1, place.2, ← before] at remembered ⊢
      rw [after, Cpu.irqFrames_enterIrq]
      exact List.take_of_length_le remembered

end IsEntry

inductive Opened (segment top : UInt16) : List (Event β) → Prop
  | nil : Opened segment top []
  | cons {e : Event β} {opened : List (Event β)} (isEntry : e.IsEntry)
      (enters : e.Enters segment top opened) (rest : Opened segment top opened) :
      Opened segment top (e :: opened)

namespace Opened

variable {segment top : UInt16} {e : Event β} {opened : List (Event β)}

/-- The innermost entry has more stack in use than all others. -/
theorem deeper (h : Opened segment top (e :: opened)) :
    ∀ outer ∈ opened, stackUse top outer.after.regs.sp < stackUse top e.after.regs.sp := by
  induction opened generalizing e with
  | nil => exact fun _ member => absurd member List.not_mem_nil
  | cons inner opened ih =>
      cases h with
      | cons isEntry enters rest =>
          have grown : stackUse top e.after.regs.sp = stackUse top e.before.regs.sp + 6 := by
            rw [isEntry.regs.2]
            exact stackUse_sub_six enters.room
          have next : stackUse top inner.after.regs.sp < stackUse top e.after.regs.sp := by
            have above := enters.above inner rfl
            omega
          intro outer member
          rcases List.mem_cons.1 member with rfl | member
          · exact next
          · exact Nat.lt_trans (ih rest outer member) next

theorem frame_apart (h : Opened segment top (e :: opened)) {frame : IrqFrame}
    (member : frame ∈ frames opened) : frame.sp ≠ e.after.regs.sp := by
  obtain ⟨outer, isOpen, found⟩ := List.mem_filterMap.1 member
  obtain ⟨line, _, rfl⟩ := Option.map_eq_some_iff.1 found
  intro same
  have less := h.deeper outer isOpen
  rw [← same] at less
  exact Nat.lt_irrefl _ less

end Opened
end Event

open Event

variable {segment top : UInt16} {e r : Event β} {opened : List (Event β)}

theorem Restores.ended {host : β → β → Prop} (h : Restores e r) :
    Bus.Ended host r.before.bus e.line?.toList r.after.bus := by
  rw [h.bus]
  cases e.line? with
  | none => exact .refl
  | some line => exact Bus.Ended.refl.endOfInterrupt line

theorem Event.IsEntry.quiet_bus {host : β → β → Prop} (h : e.IsEntry) :
    Bus.Ended host e.before.bus [] e.after.bus := by
  obtain ⟨sound, line, kind⟩ := h
  rw [Sound, kind] at sound
  cases line with
  | none =>
      obtain ⟨target, mask, after⟩ := sound
      rw [after]
      exact Bus.Ended.refl.access ((Cpu.Steady.refl e.before).enterInterrupt target mask).bus
  | some line =>
      obtain ⟨vector, target, after⟩ := sound
      rw [after, Cpu.bus_enterIrq]
      exact Bus.Ended.refl.access
        ((Cpu.Steady.refl e.before.setAside).enterInterrupt target Flags.maskInterrupts).bus

variable [MemoryBus β]

theorem regs_of_closes (isEntry : e.IsEntry) (closes : e.Closes r) :
    r.before.popFrame.regs =
      { r.before.regs with
        ip := e.before.regs.ip
        cs := e.before.regs.cs
        flags := e.before.regs.flags
        sp := e.before.regs.sp } := by
  refine r.before.regs_popFrame (closes.ss.trans isEntry.regs.1) (closes.sp.trans isEntry.regs.2) ?_
  have pushed : (memory e.after.bus).HoldsFrame e.before.regs := by
    rw [isEntry.memory_eq]
    exact Memory.holdsFrame_pushFrame _ closes.ram
  exact pushed.congr closes.unchanged

theorem restores_of_closes (nested : Opened segment top (e :: opened)) (sound : r.Sound)
    (kind : r.kind = .ret) (remembered : r.before.irqFrames = frames (e :: opened))
    (closes : e.Closes r) : Restores e r ∧ r.after.irqFrames = frames opened := by
  have isEntry : e.IsEntry := by
    cases nested with
    | cons isEntry _ _ => exact isEntry
  have popped := regs_of_closes isEntry closes
  rw [Sound, kind] at sound
  rw [frames_cons, frame?] at remembered
  cases isLine : e.line? with
  | none =>
      rw [isLine] at remembered
      have elsewhere : ∀ frame ∈ r.before.irqFrames.head?, ¬ r.before.atIrqFrame frame := by
        intro frame first here
        rw [remembered] at first
        refine nested.frame_apart (List.mem_of_mem_head? first) ?_
        rw [here.2, closes.sp]
      rw [Cpu.returnFromInterrupt_of_not_atIrqFrame elsewhere] at sound
      refine ⟨⟨by rw [sound, popped], ?_, ?_, ?_, ?_⟩, by rw [sound]; exact remembered⟩
      · exact fun isHardware => absurd isHardware (by simp [isLine])
      · exact fun isHardware => absurd isHardware (by simp [isLine])
      · exact fun isHardware => absurd isHardware (by simp [isLine])
      · rw [sound, isLine]
        rfl
  | some line =>
      rw [isLine] at remembered
      have here : r.before.atIrqFrame
          ⟨e.after.regs.ss, e.after.regs.sp, line, e.before.irqContext⟩ :=
        ⟨closes.ss.symm, closes.sp.symm⟩
      rw [Cpu.returnFromInterrupt_of_atIrqFrame remembered here] at sound
      refine ⟨⟨by rw [sound]; exact popped, ?_, ?_, ?_, ?_⟩, by rw [sound]; rfl⟩
      · exact fun _ => by rw [sound]; rfl
      · exact fun _ => by rw [sound]; rfl
      · exact fun _ => by rw [sound]; rfl
      · rw [sound, isLine]
        rfl

/-- Along a well-nested chain of events the frames are those of the open hardware entries. -/
theorem restores_of_linked {host : β → β → Prop} {c d : Cpu β} {events : List (Event β)}
    (linked : Linked host c events d) (open_ : Opened segment top opened)
    (remembered : c.irqFrames = frames opened) (nested : WellNested segment top opened events) :
    (∀ pair ∈ returns opened events, Restores pair.1 pair.2) ∧
      Bus.Ended host c.bus (endedLines opened events) d.bus := by
  -- Before each event the frames are those of the open hardware entries.
  induction linked generalizing opened with
  | done quiet => exact ⟨fun _ member => absurd member List.not_mem_nil, quiet.bus⟩
  | @next c d e events quiet sound rest ih =>
      have before : e.before.irqFrames = frames opened := quiet.irqFrames.trans remembered
      unfold WellNested at nested
      unfold returns endedLines
      cases kind : e.kind with
      | entry line =>
          rw [kind] at nested
          obtain ⟨enters, nested⟩ := nested
          have isEntry : e.IsEntry := ⟨sound, line, kind⟩
          have after := isEntry.irqFrames enters.remembered before
          obtain ⟨restored, ended⟩ := ih (.cons isEntry enters open_) after nested
          exact ⟨restored, (quiet.bus.trans isEntry.quiet_bus).trans ended⟩
      | refusal line =>
          rw [kind] at nested
          rw [Sound, kind] at sound
          have after : e.after.irqFrames = frames opened := by
            rw [sound]
            exact before
          obtain ⟨restored, ended⟩ := ih open_ after nested
          refine ⟨restored, ?_⟩
          have refused := quiet.bus.endOfInterrupt line
          rw [sound] at ended
          exact refused.trans ended
      | ret =>
          rw [kind] at nested
          cases opened with
          | nil => exact absurd nested id
          | cons inner outer =>
              obtain ⟨closes, nested⟩ := nested
              obtain ⟨restores, after⟩ := restores_of_closes open_ sound kind before closes
              have outerOpen : Opened segment top outer := by
                cases open_ with
                | cons _ _ outerOpen => exact outerOpen
              obtain ⟨restored, ended⟩ := ih outerOpen after nested
              refine ⟨fun pair member => ?_, ?_⟩
              · rcases List.mem_cons.1 member with rfl | member
                · exact restores
                · exact restored pair member
              · exact (quiet.bus.trans restores.ended).trans ended

/-- In a run whose entries and returns are well nested every return takes back what its own entry
found, and the lines of hardware interrupts end with these returns. -/
theorem well_nested_returns {host : β → β → Prop} {start final : Cpu β} {events : List (Event β)}
    (run : Run host start events final) (fresh : start.irqFrames = [])
    (nested : WellNested segment top [] events) :
    (∀ pair ∈ returns [] events, Restores pair.1 pair.2) ∧
      Bus.Ended host start.bus (endedLines [] events) final.bus :=
  restores_of_linked run.linked .nil fresh nested

/-- A program is interrupted by the keyboard, whose handler has a breakpoint. The handlers stand at
0000:0000 and 0000:0001, and the program at 0000:0010. -/
def nestedStart : Cpu FlatBus where
  regs := { ip := 0x10, sp := 0x40, flags := { interrupt := true } }
  bus := {
    memory := (((Memory.zero.set 0 0xCC).set 1 0xCF).set 0x0C 1).set 0x10 0x90
    irqQueue := [⟨9, 1⟩] }
  config := {}

def nestedReady : Cpu FlatBus :=
  ((nestedStart.syncTimer.setIp 0x11).spend 3).retire

def nestedServed : Cpu FlatBus :=
  { nestedReady with bus := nestedReady.bus.takeIrq.2 }

def nestedHandler : Cpu FlatBus :=
  nestedServed.enterIrq ⟨9, 1⟩ (0, 0)

def nestedTrap : Cpu FlatBus :=
  (((nestedHandler.syncTimer.setIp 1).spend 0).enterInterrupt (0, 1) id).spend 1 |>.retire

def nestedBack : Cpu FlatBus :=
  (nestedTrap.syncTimer.setIp 2).returnFromInterrupt.retire

def nestedFinal : Cpu FlatBus :=
  (nestedBack.syncTimer.setIp 2).returnFromInterrupt.retire

/-- Two entries, the inner one out of an instruction, and their returns. -/
def nestedEvents : List (Event FlatBus) :=
  [⟨.entry (some 1), nestedServed, nestedHandler⟩,
    ⟨.entry none, (nestedHandler.syncTimer.setIp 1).spend 0,
      ((nestedHandler.syncTimer.setIp 1).spend 0).enterInterrupt (0, 1) id⟩,
    ⟨.ret, nestedTrap.syncTimer.setIp 2, (nestedTrap.syncTimer.setIp 2).returnFromInterrupt⟩,
    ⟨.ret, nestedBack.syncTimer.setIp 2, (nestedBack.syncTimer.setIp 2).returnFromInterrupt⟩]

theorem step_nestedStart :
    nestedStart.step = .ok nestedHandler ∧
      nestedStart.stepEvents = [⟨.entry (some 1), nestedServed, nestedHandler⟩] := by
  have stands : nestedStart.syncTimer.Stands .nop := by decide
  have vector : Bus.readFar nestedServed.bus (vectorAddress 9) = (0, 0) := by decide
  have found : nestedServed.handler 9 = .ok (0, 0) := by
    rw [Cpu.handler_of_lenient rfl, vector]
    rfl
  have pending : Bus.pendingIrq nestedReady.bus = (some ⟨9, 1⟩, nestedReady.bus.takeIrq.2) := rfl
  have accepted := Cpu.serviceIrq_of_handler pending found
  constructor
  · rw [Cpu.step_of_stands rfl stands rfl]
    exact Cpu.betweenInstructions_of_accepted rfl (Cpu.serviceIrq_of_handler pending found)
  · rw [Cpu.stepEvents_of_stands rfl stands rfl]
    exact Cpu.betweenEvents_of_handler (c := nestedReady) rfl pending found false

theorem step_nestedHandler :
    nestedHandler.step = .ok nestedTrap ∧
      nestedHandler.stepEvents = [⟨.entry none, (nestedHandler.syncTimer.setIp 1).spend 0,
        ((nestedHandler.syncTimer.setIp 1).spend 0).enterInterrupt (0, 1) id⟩] := by
  have stands : nestedHandler.syncTimer.Stands .int3 := by decide
  have vector : Bus.readFar nestedHandler.syncTimer.bus (vectorAddress 3) = (1, 0) := by
    decide
  have found : ((nestedHandler.syncTimer.setIp 1).spend 0).handler 3 = .ok (0, 1) := by
    rw [Cpu.handler_of_lenient rfl]
    exact congrArg (fun v => Except.ok v.swap) vector
  have raised : ((nestedHandler.syncTimer.setIp 1).spend 0).raise 3 =
      .ok (((nestedHandler.syncTimer.setIp 1).spend 0).enterInterrupt (0, 1) id) := by
    rw [Cpu.raise, Cpu.interrupt, found]
  have done : (nestedHandler.syncTimer.setIp 1).exec .int3 =
      .ok ((((nestedHandler.syncTimer.setIp 1).spend 0).enterInterrupt (0, 1) id).spend 1) := by
    rw [Cpu.exec_of_raised (r := ⟨3, 0, 1⟩) rfl]
    exact congrArg (fun o : Outcome FlatBus => o.andThen fun c => .ok (c.spend 1)) raised
  constructor
  · rw [Cpu.step_of_stands rfl stands done]
    exact Cpu.betweenInstructions_of_off rfl false
  · rw [Cpu.stepEvents_of_stands rfl stands done]
    change ((nestedHandler.syncTimer.setIp 1).spend 0).entryEvents 3 id ++ _ = _
    rw [Cpu.entryEvents, found]
    exact congrArg _ (Cpu.betweenEvents_of_off rfl false)

theorem step_nestedTrap :
    nestedTrap.step = .ok nestedBack ∧
      nestedTrap.stepEvents =
        [⟨.ret, nestedTrap.syncTimer.setIp 2,
          (nestedTrap.syncTimer.setIp 2).returnFromInterrupt⟩] := by
  have stands : nestedTrap.syncTimer.Stands .iret := by decide
  have off : nestedBack.regs.flags.interrupt = false := by decide
  constructor
  · rw [Cpu.step_of_stands rfl stands rfl]
    exact Cpu.betweenInstructions_of_off off false
  · rw [Cpu.stepEvents_of_stands rfl stands rfl]
    exact congrArg _ (Cpu.betweenEvents_of_off off false)

theorem step_nestedBack :
    nestedBack.step = .ok nestedFinal ∧
      nestedBack.stepEvents =
        [⟨.ret, nestedBack.syncTimer.setIp 2,
          (nestedBack.syncTimer.setIp 2).returnFromInterrupt⟩] := by
  have stands : nestedBack.syncTimer.Stands .iret := by decide
  have on : nestedFinal.regs.flags.interrupt = true := by decide
  have queue : nestedFinal.bus.irqQueue = [] := by decide
  have pending := FlatBus.pendingIrq_of_empty queue
  constructor
  · rw [Cpu.step_of_stands rfl stands rfl]
    exact Cpu.betweenInstructions_of_idle on (Cpu.serviceIrq_of_none pending) false
  · rw [Cpu.stepEvents_of_stands rfl stands rfl]
    exact congrArg _ (Cpu.betweenEvents_of_none on pending false)

theorem run_nestedStart : Run FlatBus.Requests nestedStart nestedEvents nestedFinal :=
  (((Run.refl.stepTo step_nestedStart).stepTo step_nestedHandler).stepTo step_nestedTrap).stepTo
    step_nestedBack

theorem memory_nestedTrap : memory nestedTrap.syncTimer.bus =
    (memory nestedHandler.bus).pushFrame ((nestedHandler.syncTimer.setIp 1).spend 0).regs := by
  have entered := Cpu.memory_enterInterrupt ((nestedHandler.syncTimer.setIp 1).spend 0) (0, 1) id
  rw [Cpu.memory_syncTimer, nestedTrap, Cpu.memory_retire]
  exact entered.trans
    (congrArg (fun m : Memory => m.pushFrame _) (Cpu.memory_syncTimer nestedHandler))

theorem memory_nestedBack : memory nestedBack.syncTimer.bus = memory nestedTrap.syncTimer.bus := by
  rw [Cpu.memory_syncTimer, nestedBack, Cpu.memory_retire, Cpu.memory_returnFromInterrupt]
  rfl

theorem wellNested_nestedEvents : WellNested 0 0x40 [] nestedEvents := by
  refine ⟨?_, ?_, ?_, ?_, trivial⟩
  · exact ⟨rfl, by decide, fun _ member => absurd member (Option.not_mem_none _), by decide⟩
  · refine ⟨rfl, by decide, ?_, by decide⟩
    rintro inner ⟨⟩
    decide
  · refine ⟨by decide, by decide, List.all_iff_forall_prop.1 (by decide),
      fun byte _ => ?_⟩
    exact congrArg (fun m : Memory => m.get byte) (Cpu.memory_syncTimer nestedTrap)
  · refine ⟨by decide, by decide, List.all_iff_forall_prop.1 (by decide),
      fun byte member => ?_⟩
    change (memory nestedBack.syncTimer.bus).get byte = (memory nestedHandler.bus).get byte
    rw [memory_nestedBack, memory_nestedTrap]
    refine Memory.agreeOutside_pushFrame _ _ byte ?_
    revert byte member
    exact List.all_iff_forall_prop.1 (by decide)

/-- The keyboard is ended once, by the outer of the two returns. -/
theorem well_nested_returns_keyboard :
    Run FlatBus.Requests nestedStart nestedEvents nestedFinal ∧ nestedStart.irqFrames = [] ∧
      WellNested 0 0x40 [] nestedEvents ∧
      (∀ pair ∈ returns [] nestedEvents, Restores pair.1 pair.2) ∧
      Bus.Ended FlatBus.Requests nestedStart.bus [1] nestedFinal.bus := by
  have returned := well_nested_returns run_nestedStart rfl wellNested_nestedEvents
  exact ⟨run_nestedStart, rfl, wellNested_nestedEvents, returned.1, returned.2⟩

end RealMode
