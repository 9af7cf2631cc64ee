import RealMode.Proofs.Cpu.Disguise
import RealMode.Proofs.Decode.Variants

/-!
The variants in lockstep. While both read the same instructions, they do the same with them, enter
the same handlers and accept the same interrupts, so that two processors that differ in nothing but
the variant stay so, step by step.
-/

namespace RealMode

def Cpu.on {β : Type} (c : Cpu β) (v : Variant) : Cpu β :=
  { c with config := { c.config with variant := v } }

def Outcome.on {β : Type} (o : Outcome β) (v : Variant) : Outcome β :=
  ⟨o.cpu.on v, o.missing⟩

namespace Outcome

variable {β : Type} (v : Variant)

theorem andThen_on (o : Outcome β) {f : Cpu β → Outcome β}
    (kept : ∀ c, f (c.on v) = (f c).on v) : (o.on v).andThen f = (o.andThen f).on v := by
  obtain ⟨c, missing⟩ := o
  cases missing with
  | none => exact kept c
  | some e => rfl

end Outcome

namespace Cpu

variable {β : Type} [Bus β] (c : Cpu β) (v : Variant)

@[simp] theorem handler_on (vector : UInt8) : (c.on v).handler vector = c.handler vector := rfl

theorem interrupt_on (vector : UInt8) (mask : Flags → Flags) :
    (c.on v).interrupt vector mask = (c.interrupt vector mask).on v := by
  rw [interrupt, interrupt, handler_on]
  cases c.handler vector <;> rfl

theorem raised?_on {i : Instr} (agreed : i.differs = false) :
    (c.on v).raised? i = c.raised? i := by
  cases i with
  | unknown | escape => cases agreed
  | div signed w rm =>
      exact congrArg
        (fun q => if q.isNone then
          some (Raised.mk Exception.divideError.vector (divClocks signed w rm) 0) else none)
        (c.quotient?_disguise c.regs.flags.trap v signed w rm)
  | _ => rfl

theorem endIrqAt_on (ss sp : UInt16) : (c.on v).endIrqAt ss sp = (c.endIrqAt ss sp).on v := by
  have frames : (c.on v).irqFrames = c.irqFrames := rfl
  rw [endIrqAt, endIrqAt, frames]
  cases c.irqFrames with
  | nil => rfl
  | cons frame outer =>
      dsimp only
      split <;> rfl

theorem returnFromInterrupt_on : (c.on v).returnFromInterrupt = c.returnFromInterrupt.on v :=
  c.popFrame.endIrqAt_on v c.regs.ss c.regs.sp

/-- An instruction that both variants know is the same on both. -/
theorem exec_on {i : Instr} (agreed : i.differs = false) :
    (c.on v).exec i = (c.exec i).on v := by
  cases raised : c.raised? i with
  | some r =>
      have alsoRaised : (c.on v).raised? i = some r := (c.raised?_on v agreed).trans raised
      rw [exec_of_raised raised, exec_of_raised alsoRaised]
      have entered : ((c.on v).spend r.before).raise r.vector =
          ((c.spend r.before).raise r.vector).on v := (c.spend r.before).interrupt_on v _ _
      rw [entered]
      exact Outcome.andThen_on v _ fun _ => rfl
  | none =>
      cases packs : i.packsFlags with
      | false =>
          have differing : i.differs = true → v = c.config.variant := by
            rw [agreed]
            nofun
          calc (c.on v).exec i
            _ = (c.exec i).disguise c.regs.flags.trap v :=
                exec_disguise c.regs.flags.trap v packs differing raised
            _ = ((c.exec i).disguise c.regs.flags.trap c.config.variant).on v := rfl
            _ = (c.exec i).on v := by rw [disguise_exec packs raised]
      | true =>
          cases i with
          | pushFlags | popFlags => rfl
          | iret => exact congrArg Outcome.ok (c.returnFromInterrupt_on v)
          | _ => cases packs

theorem trapIf_on (armed : Bool) : (c.on v).trapIf armed = (c.trapIf armed).on v := by
  rw [trapIf, trapIf]
  have prefixes : (c.on v).prefixes = c.prefixes := rfl
  rw [prefixes]
  split
  · exact c.interrupt_on v _ _
  · rfl

theorem betweenInstructions_on (armed : Bool) :
    (c.on v).betweenInstructions armed = (c.betweenInstructions armed).on v := by
  cases enabled : c.regs.flags.interrupt with
  | false =>
      rw [betweenInstructions_of_off enabled, betweenInstructions_of_off (c := c.on v) enabled]
      exact c.trapIf_on v armed
  | true =>
      cases out : Bus.pendingIrq c.bus with
      | mk irq? bus =>
          have alsoOut : Bus.pendingIrq (c.on v).bus = (irq?, bus) := out
          cases irq? with
          | none =>
              rw [betweenInstructions_of_idle enabled (serviceIrq_of_none out),
                betweenInstructions_of_idle (c := c.on v) enabled (serviceIrq_of_none alsoOut)]
              exact trapIf_on { c with bus } v armed
          | some irq =>
              cases found : { c with bus }.handler irq.vector with
              | ok target =>
                  rw [betweenInstructions_of_accepted enabled (serviceIrq_of_handler out found),
                    betweenInstructions_of_accepted (c := c.on v) enabled
                      (serviceIrq_of_handler alsoOut found)]
                  rfl
              | error e =>
                  rw [betweenInstructions_of_refused enabled (serviceIrq_of_missing out found),
                    betweenInstructions_of_refused (c := c.on v) enabled
                      (serviceIrq_of_missing alsoOut found)]
                  rfl

/-- The bytes from CS:IP on, as a step will read them. -/
def code (c : Cpu β) : Code :=
  c.syncTimer.codeByte c.syncTimer.window

theorem fetch_on (portable : Portable (c.codeByte c.window)) :
    (c.on v).fetch = c.fetch ∧ c.fetch.instr.differs = false := by
  obtain ⟨same, agreed⟩ := decode_of_portable portable
  have eightySix (w : Variant) :
      decode w (c.codeByte c.window) = decode .i8086 (c.codeByte c.window) := by
    cases w with
    | i8086 => rfl
    | i80186 => exact same
  have here : c.fetch = decode .i8086 (c.codeByte c.window) := eightySix c.config.variant
  constructor
  · rw [here]
    exact eightySix v
  · rw [here]
    exact agreed

theorem advance_on (portable : c.halted = false → Portable (c.codeByte c.window)) :
    (c.on v).advance = c.advance.on v := by
  cases halted : c.halted with
  | true =>
      rw [advance_of_halted halted, advance_of_halted (c := c.on v) halted]
      rfl
  | false =>
      obtain ⟨same, agreed⟩ := c.fetch_on v (portable halted)
      have fetched : (c.on v).fetched = c.fetched.on v := by
        rw [Cpu.fetched, same]
        rfl
      rw [advance_of_running halted, advance_of_running (c := c.on v) halted, fetched, same,
        c.fetched.exec_on v agreed]
      exact Outcome.andThen_on v _ fun _ => rfl

/-- One step, whatever comes of it. -/
theorem step_on (portable : c.halted = false → Portable c.code) :
    (c.on v).step = c.step.on v := by
  have advanced : (c.on v).syncTimer.advance = c.syncTimer.advance.on v :=
    c.syncTimer.advance_on v portable
  rw [step_eq, step_eq, advanced]
  exact Outcome.andThen_on v _ fun d => d.betweenInstructions_on v _

def hosted (c : Cpu β) (act : β → β) : Cpu β :=
  { c with bus := act c.bus }

/-- What comes of steps, completed or broken off, with an act of the host on the bus before each of
them. -/
def outcomes (c : Cpu β) : List (β → β) → List (Outcome β)
  | [] => []
  | act :: acts => (c.hosted act).step :: (c.hosted act).step.cpu.outcomes acts

/-- Whether all that these steps fetch is portable. -/
def RunsPortably (c : Cpu β) : List (β → β) → Prop
  | [] => True
  | act :: acts =>
    (c.halted = false → Portable (c.hosted act).code) ∧
      (c.hosted act).step.cpu.RunsPortably acts

theorem outcomes_on {acts : List (β → β)} (portable : c.RunsPortably acts) :
    (c.on v).outcomes acts = (c.outcomes acts).map (·.on v) := by
  induction acts generalizing c with
  | nil => rfl
  | cons act acts ih =>
      have step : ((c.on v).hosted act).step = (c.hosted act).step.on v :=
        (c.hosted act).step_on v portable.1
      rw [outcomes, outcomes, List.map_cons, ← ih _ portable.2, step]
      rfl

end Cpu

/-- Two processors that differ in the variant alone, with the same acts of their hosts, give the
same results and go on differing in the variant alone. -/
theorem variants_in_lockstep {β : Type} [Bus β] {c : Cpu β} {acts : List (β → β)}
    (portable : (c.on .i8086).RunsPortably acts) :
    ((c.on .i80186).outcomes acts).map Outcome.result =
        ((c.on .i8086).outcomes acts).map Outcome.result ∧
      (c.on .i80186).outcomes acts = ((c.on .i8086).outcomes acts).map (·.on .i80186) := by
  have states : (c.on .i80186).outcomes acts = ((c.on .i8086).outcomes acts).map (·.on .i80186) :=
    (c.on .i8086).outcomes_on .i80186 portable
  refine ⟨?_, states⟩
  rw [states, List.map_map]
  rfl

/-- Enabled interrupts at a NOP, and a handler of the keyboard that returns at once. -/
def keyedStart : Cpu FlatBus where
  regs := { ip := 0x10, sp := 0x48, flags := { interrupt := true } }
  bus := { memory := ((Memory.zero.set 0x10 0x90).set 0x24 0x30).set 0x30 0xCF }
  config := .ofRatio .i8086 4 false

def pressKey (b : FlatBus) : FlatBus :=
  b.requestIrq ⟨9, 1⟩

def keyedRetired : Cpu FlatBus :=
  ((keyedStart.syncTimer.setIp 0x11).spend 3).retire

def keyedHandler : Cpu FlatBus :=
  keyedRetired.enterIrq ⟨9, 1⟩ (Bus.readFar keyedRetired.bus (vectorAddress 9)).swap

theorem serviceIrq_pressKey :
    (keyedRetired.hosted pressKey).serviceIrq = .accepted keyedHandler := by
  have out : Bus.pendingIrq (keyedRetired.hosted pressKey).bus =
      (some ⟨9, 1⟩, keyedRetired.bus) := rfl
  exact Cpu.serviceIrq_of_handler out (Cpu.handler_of_lenient rfl 9)

theorem step_keyedStart : (keyedStart.hosted pressKey).step = .ok keyedHandler := by
  have stands : (keyedStart.hosted pressKey).syncTimer.Stands .nop := by decide
  rw [Cpu.step_of_stands rfl stands rfl]
  exact Cpu.betweenInstructions_of_accepted rfl serviceIrq_pressKey

theorem runsPortably_keyedStart : keyedStart.RunsPortably [pressKey, id] := by
  have first : (keyedStart.hosted pressKey).code 0 = 0x90 := by
    rw [Cpu.code, Cpu.codeByte_window_zero]
    decide
  have second : keyedHandler.code 0 = 0xCF := by
    rw [Cpu.code, Cpu.codeByte_window_zero]
    decide
  refine ⟨fun _ => portable_of_regular first (by decide) (by decide), ?_⟩
  rw [step_keyedStart]
  exact ⟨fun _ => portable_of_regular second (by decide) (by decide), trivial⟩

/-- The keyboard interrupts the program, and its handler returns. -/
theorem variants_in_lockstep_keyboard :
    keyedStart.RunsPortably [pressKey, id] ∧
      (keyedStart.on .i80186).outcomes [pressKey, id] =
        (keyedStart.outcomes [pressKey, id]).map (·.on .i80186) :=
  ⟨runsPortably_keyedStart,
    (variants_in_lockstep (c := keyedStart) runsPortably_keyedStart).2⟩

end RealMode
