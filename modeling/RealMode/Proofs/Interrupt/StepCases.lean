import RealMode.Proofs.Interrupt.Events

/-!
All that a step can do, case by case, together with its events. What is said of steps elsewhere is
read off these cases: how an instruction ends, what happens between two instructions, and how the
two make up a step, whether it is completed or breaks off.
-/

namespace RealMode
namespace Cpu

variable {β : Type} [Bus β]

/-- The ways in which an instruction ends. -/
inductive Execution (c : Cpu β) (i : Instr) : List (Event β) → Outcome β → Prop
  | returns (isReturn : i = .iret) :
      Execution c i [⟨.ret, c, c.returnFromInterrupt⟩] (.ok c.returnFromInterrupt)
  | works {d : Cpu β} (notReturn : i ≠ .iret) (silent : c.raised? i = none)
      (done : c.exec i = .ok d) : Execution c i [] (.ok d)
  | raises {r : Raised} {target : UInt16 × UInt16} (raised : c.raised? i = some r)
      (found : c.handler r.vector = .ok target) :
      Execution c i [⟨.entry none, c.spend r.before, (c.spend r.before).enterInterrupt target id⟩]
        (.ok (((c.spend r.before).enterInterrupt target id).spend r.after))
  | missing {r : Raised} {e : MissingHandler} (raised : c.raised? i = some r)
      (missing : c.handler r.vector = .error e) : Execution c i [] ⟨c.spend r.before, some e⟩

theorem not_of_ite_eq_none {α : Type} {p : Prop} [Decidable p] {a : α}
    (h : (if p then some a else none) = none) : ¬ p := by
  intro holds
  rw [if_pos holds] at h
  cases h

theorem variant_of_not_80186 {v : Variant} (other : v ≠ .i80186) : v = .i8086 := by
  cases v with
  | i8086 => rfl
  | i80186 => exact absurd rfl other

/-- Only the 80186 raises an exception where it finds no meaning. -/
theorem variant_of_unknown {c : Cpu β} (silent : c.raised? .unknown = none) :
    c.config.variant = .i8086 :=
  variant_of_not_80186 (not_of_ite_eq_none silent)

theorem variant_of_escape {c : Cpu β} {rm : Operand} (silent : c.raised? (.escape rm) = none) :
    c.config.variant = .i8086 :=
  variant_of_not_80186 (not_of_ite_eq_none silent)

theorem unknown_of_8086 {c : Cpu β} (variant : c.config.variant = .i8086) : c.unknown = .ok c := by
  rw [unknown, variant]

theorem escape_of_8086 {c : Cpu β} (variant : c.config.variant = .i8086) (rm : Operand) :
    c.escape rm = .ok (c.spend (rm.cost 2 8)) := by
  have spent : (c.spend (rm.cost 2 8)).config.variant = .i8086 := variant
  rw [escape, spent]

theorem bound_of_silent {c : Cpu β} {reg : Fin 8} {m : MemOperand}
    (silent : c.raised? (.bound reg m) = none) : c.bound reg m = .ok (c.spend (13 + m.clocks)) :=
  if_neg (not_of_ite_eq_none silent)

theorem into_of_silent {c : Cpu β} (silent : c.raised? .into = none) : c.into = .ok (c.spend 4) :=
  if_neg (not_of_ite_eq_none silent)

/-- An instruction that raises no interrupt is completed. -/
theorem exec_of_silent {c : Cpu β} {i : Instr} (silent : c.raised? i = none) :
    ∃ d, c.exec i = .ok d := by
  cases i with
  | unknown => exact ⟨c, unknown_of_8086 (variant_of_unknown silent)⟩
  | div signed w rm =>
      have fits : c.quotient? signed w rm ≠ none := fun tooLarge =>
        not_of_ite_eq_none silent (Option.isNone_iff_eq_none.2 tooLarge)
      obtain ⟨q, quotient⟩ := Option.ne_none_iff_exists'.1 fits
      exact ⟨_, by rw [exec, div_eq, quotient]⟩
  | aam base =>
      have defined : c.regs.flags.aam c.regs.al base ≠ none := fun byZero =>
        not_of_ite_eq_none silent (Option.isNone_iff_eq_none.2 byZero)
      obtain ⟨⟨ax, flags⟩, adjusted⟩ := Option.ne_none_iff_exists'.1 defined
      have after : (c.spend 83).regs.flags.aam (c.spend 83).regs.al base = some (ax, flags) :=
        adjusted
      refine ⟨{ c.spend 83 with regs := { c.regs with ax, flags } }, ?_⟩
      rw [exec, aam]
      dsimp only
      rw [after]
      rfl
  | bound reg m => exact ⟨_, bound_of_silent silent⟩
  | into => exact ⟨_, into_of_silent silent⟩
  | escape rm => exact ⟨_, escape_of_8086 (variant_of_escape silent) rm⟩
  | int3 | int => cases silent
  | _ => exact ⟨_, rfl⟩

theorem raise_of_handler {c : Cpu β} {vector : UInt8} {target : UInt16 × UInt16}
    (found : c.handler vector = .ok target) : c.raise vector = .ok (c.enterInterrupt target id) :=
  interrupt_of_handler found id

theorem raise_of_missing {c : Cpu β} {vector : UInt8} {e : MissingHandler}
    (missing : c.handler vector = .error e) : c.raise vector = ⟨c, some e⟩ := by
  rw [raise, interrupt, missing]

theorem instrEvents_of_raised {c : Cpu β} {i : Instr} {r : Raised} (raised : c.raised? i = some r) :
    c.instrEvents i = (c.spend r.before).entryEvents r.vector id := by
  have notReturn : i ≠ .iret := by
    rintro rfl
    cases raised
  rw [instrEvents, if_neg notReturn, raised]

theorem execution (c : Cpu β) (i : Instr) : Execution c i (c.instrEvents i) (c.exec i) := by
  by_cases isReturn : i = .iret
  · subst isReturn
    exact .returns rfl
  · cases raised : c.raised? i with
    | none =>
        obtain ⟨d, done⟩ := exec_of_silent raised
        rw [instrEvents, if_neg isReturn, raised, done]
        exact .works isReturn raised done
    | some r =>
        rw [instrEvents_of_raised raised, exec_of_raised raised, entryEvents]
        cases found : c.handler r.vector with
        | ok target =>
            have spent : (c.spend r.before).handler r.vector = .ok target := found
            rw [raise_of_handler spent, spent]
            exact .raises raised found
        | error e =>
            have spent : (c.spend r.before).handler r.vector = .error e := found
            rw [raise_of_missing spent, spent]
            exact .missing raised found

/-- Whether and how the interrupt controller has been asked in vain. -/
inductive Polled (c : Cpu β) : Cpu β → Prop
  | off (off : c.regs.flags.interrupt = false) : Polled c c
  | idle {bus : β} (on : c.regs.flags.interrupt = true)
      (out : Bus.pendingIrq c.bus = (none, bus)) : Polled c { c with bus }

/-- What can happen between two instructions. -/
inductive Boundary (c : Cpu β) (armed : Bool) : List (Event β) → Outcome β → Prop
  | nothing {d : Cpu β} (polled : Polled c d) (noTrap : (armed && !d.prefixes.isPending) = false) :
      Boundary c armed [] (.ok d)
  | trap {d : Cpu β} {target : UInt16 × UInt16} (polled : Polled c d)
      (due : (armed && !d.prefixes.isPending) = true)
      (found : d.handler Exception.singleStep.vector = .ok target) :
      Boundary c armed [⟨.entry none, d, d.enterInterrupt target Flags.maskInterrupts⟩]
        (.ok (d.enterInterrupt target Flags.maskInterrupts))
  | missingTrap {d : Cpu β} {e : MissingHandler} (polled : Polled c d)
      (due : (armed && !d.prefixes.isPending) = true)
      (missing : d.handler Exception.singleStep.vector = .error e) :
      Boundary c armed [] ⟨d, some e⟩
  | accepted {irq : PendingIrq} {bus : β} {target : UInt16 × UInt16}
      (on : c.regs.flags.interrupt = true) (out : Bus.pendingIrq c.bus = (some irq, bus))
      (found : { c with bus }.handler irq.vector = .ok target) :
      Boundary c armed
        [⟨.entry (some irq.line), { c with bus }, { c with bus }.enterIrq irq target⟩]
        (.ok ({ c with bus }.enterIrq irq target))
  | refused {irq : PendingIrq} {bus : β} {e : MissingHandler}
      (on : c.regs.flags.interrupt = true) (out : Bus.pendingIrq c.bus = (some irq, bus))
      (missing : { c with bus }.handler irq.vector = .error e) :
      Boundary c armed
        [⟨.refusal irq.line, { c with bus }, { c with bus := Bus.endOfInterrupt bus irq.line }⟩]
        ⟨{ c with bus := Bus.endOfInterrupt bus irq.line }, some e⟩

theorem Boundary.of_polled {c d : Cpu β} (polled : Polled c d) (armed : Bool) :
    Boundary c armed (d.trapEvents armed) (d.trapIf armed) := by
  rw [trapEvents, trapIf]
  cases due : armed && !d.prefixes.isPending with
  | false => exact .nothing polled due
  | true =>
      rw [if_pos rfl, if_pos rfl, entryEvents, singleStepTrap, interrupt]
      cases found : d.handler Exception.singleStep.vector with
      | ok target => exact .trap polled due found
      | error e => exact .missingTrap polled due found

theorem boundary (c : Cpu β) (armed : Bool) :
    Boundary c armed (c.betweenEvents armed) (c.betweenInstructions armed) := by
  cases on : c.regs.flags.interrupt with
  | false =>
      rw [betweenEvents_of_off on, betweenInstructions_of_off on]
      exact .of_polled (.off on) armed
  | true =>
      cases out : Bus.pendingIrq c.bus with
      | mk irq? bus =>
          cases irq? with
          | none =>
              rw [betweenEvents_of_none on out,
                betweenInstructions_of_idle on (serviceIrq_of_none out)]
              exact .of_polled (.idle on out) armed
          | some irq =>
              cases found : { c with bus }.handler irq.vector with
              | ok target =>
                  rw [betweenEvents_of_handler on out found,
                    betweenInstructions_of_accepted on (serviceIrq_of_handler out found)]
                  exact .accepted on out found
              | error e =>
                  rw [betweenEvents_of_missing on out found,
                    betweenInstructions_of_refused on (serviceIrq_of_missing out found)]
                  exact .refused on out found

/-- What asking the interrupt controller can make of the bus when no request is accepted. -/
inductive Asked (b : β) : β → Prop
  | no : Asked b b
  | idle : Asked b (Bus.pendingIrq b).2
  | refused (line : UInt8) : Asked b (Bus.endOfInterrupt (Bus.pendingIrq b).2 line)

theorem Asked.memory [MemoryBus β] {b bus : β} (asked : Asked b bus) :
    MemoryBus.memory bus = MemoryBus.memory b := by
  cases asked with
  | no => rfl
  | idle => exact MemoryBus.pendingIrq b
  | refused line => exact (MemoryBus.endOfInterrupt _ line).trans (MemoryBus.pendingIrq b)

theorem Polled.asked {c d : Cpu β} (h : Polled c d) :
    ∃ bus, Asked c.bus bus ∧ d = { c with bus } := by
  cases h with
  | off => exact ⟨c.bus, .no, rfl⟩
  | @idle bus _ out =>
      have asked : Asked c.bus bus := by simpa only [out] using Asked.idle (b := c.bus)
      exact ⟨bus, asked, rfl⟩

section

variable {c : Cpu β} {events : List (Event β)} {o : Outcome β}

/-- Between two instructions nothing happens to what a program sees, unless a handler is entered. -/
theorem Boundary.unentered {armed : Bool} (between : Boundary c armed events o)
    (unentered : ∀ e ∈ events, ∀ line, e.kind ≠ .entry line) :
    ∃ bus, Asked c.bus bus ∧ o.cpu = { c with bus } := by
  cases between with
  | nothing polled | missingTrap polled => exact polled.asked
  | trap | accepted => exact absurd rfl (unentered _ List.mem_cons_self _)
  | @refused irq bus _ _ out =>
      have asked : Asked c.bus (Bus.endOfInterrupt bus irq.line) := by
        simpa only [out] using Asked.refused (b := c.bus) irq.line
      exact ⟨_, asked, rfl⟩

/-- With the trap off only a hardware interrupt can be entered there. -/
theorem Boundary.unentered_of_unserved (between : Boundary c false events o)
    (unserved : ∀ e ∈ events, ∀ line, e.kind ≠ .entry (some line)) :
    ∀ e ∈ events, ∀ line, e.kind ≠ .entry line := by
  cases between with
  | nothing | missingTrap => exact fun _ member => absurd member List.not_mem_nil
  | trap _ due => cases due
  | accepted => exact (unserved _ List.mem_cons_self _ rfl).elim
  | refused =>
      intro e member line entry
      rw [List.mem_singleton.1 member] at entry
      cases entry

/-- With the trap off nothing happens there unless a hardware interrupt is accepted, and nothing
fails unless one is refused. -/
theorem Boundary.unserved (between : Boundary c false events o)
    (unserved : ∀ e ∈ events, ∀ line, e.kind ≠ .entry (some line)) :
    ∃ bus, Asked c.bus bus ∧ o.cpu = { c with bus } ∧
      (o.missing.isSome = true → ∃ e ∈ events, ∃ line, e.kind = .refusal line) := by
  obtain ⟨bus, asked, done⟩ := between.unentered (between.unentered_of_unserved unserved)
  refine ⟨bus, asked, done, ?_⟩
  cases between with
  | nothing | accepted => exact nofun
  | trap _ due | missingTrap _ due => cases due
  | refused => exact fun _ => ⟨_, List.mem_cons_self, _, rfl⟩

end

/-- All that a step can do. A halted processor has no instruction, and one that breaks off in its
instruction does not come to what is between instructions. -/
inductive Stepped (c : Cpu β) : List (Event β) → Outcome β → Prop
  | idle {events : List (Event β)} {o : Outcome β} (halted : c.halted = true)
      (between : Boundary (c.syncTimer.spend c.config.timerRatio) false events o) :
      Stepped c events o
  | cycle {during after : List (Event β)} {d : Cpu β} {o : Outcome β} (running : c.halted = false)
      (done : c.syncTimer.dispatch = .ok d)
      (executed : Execution c.syncTimer.fetched c.syncTimer.fetch.instr during (.ok d))
      (between : Boundary d.retire c.regs.flags.trap after o) : Stepped c (during ++ after) o
  | broken {r : Raised} {e : MissingHandler} (running : c.halted = false)
      (failed : c.syncTimer.dispatch = ⟨c.syncTimer.fetched.spend r.before, some e⟩)
      (raised : c.syncTimer.fetched.raised? c.syncTimer.fetch.instr = some r)
      (missing : c.syncTimer.fetched.handler r.vector = .error e) :
      Stepped c [] ⟨c.syncTimer.fetched.spend r.before, some e⟩

theorem stepped (c : Cpu β) : Stepped c c.stepEvents c.step := by
  rw [stepEvents, step_eq, advanceEvents]
  cases halted : c.halted with
  | true =>
      have isHalted : c.syncTimer.halted = true := halted
      have between := (c.syncTimer.spend c.config.timerRatio).boundary false
      rw [if_pos isHalted, advance_of_halted isHalted, armed, isHalted]
      exact .idle halted between
  | false =>
      have running : c.syncTimer.halted = false := halted
      have executed := c.syncTimer.fetched.execution c.syncTimer.fetch.instr
      have dispatched : c.syncTimer.dispatch = c.syncTimer.fetched.exec c.syncTimer.fetch.instr :=
        rfl
      rw [if_neg (by rw [running]; exact Bool.false_ne_true), advance_of_running running,
        armed_of_running running]
      generalize c.syncTimer.fetched.instrEvents c.syncTimer.fetch.instr = during at executed
      generalize c.syncTimer.fetched.exec c.syncTimer.fetch.instr = o at executed dispatched
      obtain ⟨d, missing?⟩ := o
      cases missing? with
      | none => exact .cycle halted dispatched executed (d.retire.boundary _)
      | some e =>
          cases executed with
          | missing raised missing => exact .broken halted dispatched raised missing

end Cpu
end RealMode
