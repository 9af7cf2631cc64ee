import RealMode.Proofs.Cpu.Disguise
import RealMode.Proofs.Prefix.Flow
import RealMode.Proofs.String.Interruption

/-!
Single-stepping is transparent. Under the trap flag an instruction is followed by the entry of the
trap's handler. One that returns at once gives the processor back as the instruction alone would
have left it, the trap flag apart and the bytes that the entry has pushed.
-/

namespace RealMode

/-- Between two instructions, with the trap on and nothing else about. -/
structure Trapping (c : Cpu FlatBus) : Prop where
  running : c.halted = false
  trap : c.regs.flags.trap = true
  unprefixed : c.prefixes.isPending = false
  irqQueue : c.bus.irqQueue = []
  irqFrames : c.irqFrames = []

def trapVector : UInt8 :=
  Exception.singleStep.vector

/-- The bytes that the trap lives on: its handler and its vector. -/
def trapBytes (b : FlatBus) : List UInt32 :=
  handlerByte b trapVector :: slotBytes trapVector

/-- Instructions that keep the prefixes, the flag word and the processor to themselves. -/
structure Instr.Steppable (i : Instr) : Prop where
  notPrefix : i.isPrefix = false
  unpacked : i.packsFlags = false
  notHalt : i ≠ .hlt

namespace Instr.Steppable

variable {i : Instr}

theorem ne_iret (h : i.Steppable) : i ≠ .iret := by
  rintro rfl
  cases h.unpacked

end Instr.Steppable

namespace Cpu

def untrapped (c : Cpu FlatBus) : Cpu FlatBus :=
  c.setFlags (c.regs.flags.withTrap false)

/-- What the next instruction alone makes of a processor. -/
abbrev alone (c : Cpu FlatBus) : Cpu FlatBus :=
  c.untrapped.step.cpu

/-- Where the entry of the trap pushes to. -/
abbrev trapFrame (c : Cpu FlatBus) : List UInt32 :=
  frameBytes c.alone.regs.ss c.alone.regs.sp

end Cpu

/-- The next instruction and the trap behind it keep out of each other's way. -/
structure Traceable (c : Cpu FlatBus) : Prop where
  instr : c.syncTimer.fetch.instr.Steppable
  silent : c.syncTimer.fetched.raised? c.syncTimer.fetch.instr = none
  keeps : ∀ byte ∈ trapBytes c.bus, c.alone.bus.memory.get byte = c.bus.memory.get byte
  ram : ∀ byte ∈ c.trapFrame, isRam byte
  apart : ∀ byte ∈ trapBytes c.bus, byte ∉ c.trapFrame

namespace Cpu

variable {c d : Cpu FlatBus} {i : Instr}

theorem prefixes_exec (steppable : i.Steppable) (rep : c.prefixes.rep = none) :
    (c.exec i).cpu.prefixes = c.prefixes := by
  by_cases plain : i.isPlain = true
  · exact (c.plain_exec plain).prefixes
  · cases i with
    | iret => exact absurd rfl steppable.ne_iret
    | hlt => exact absurd rfl steppable.notHalt
    | segmentOverride | repeatPrefix | lock => cases steppable.notPrefix
    | string op w =>
        change (c.string op w).prefixes = _
        rw [string, rep]
        exact ((Plain.refl c).stringElement op w).prefixes
    | _ => exact absurd rfl plain

theorem steady_of_exec (steppable : i.Steppable) (done : c.exec i = .ok d) : Steady c d := by
  have steady := c.steady_exec steppable.ne_iret
  rwa [done] at steady

/-- An instruction neither looks at the trap flag nor changes it. -/
theorem exec_untrapped (steppable : i.Steppable) (silent : c.raised? i = none)
    (done : c.exec i = .ok d) :
    c.untrapped.exec i = .ok d.untrapped ∧ d.regs.flags.trap = c.regs.flags.trap := by
  have agree (trap : Bool) : (c.disguise trap c.config.variant).exec i =
      .ok (d.disguise trap c.config.variant) := by
    rw [exec_disguise trap c.config.variant steppable.unpacked (fun _ => rfl) silent, done]
    rfl
  have config : d.config = c.config := (steady_of_exec steppable done).config
  constructor
  · refine (agree false).trans ?_
    rw [← config]
    rfl
  · have own := disguise_exec steppable.unpacked silent
    rw [done] at own
    exact congrArg (·.cpu.regs.flags.trap) own.symm

theorem step_iret (running : c.halted = false) (trap : c.regs.flags.trap = false)
    (irqQueue : c.bus.irqQueue = []) (irqFrames : c.irqFrames = [])
    (stands : c.syncTimer.Stands .iret) :
    c.step = .ok (c.syncTimer.setIp (c.regs.ip + 1)).popFrame.retire := by
  have returned : (c.syncTimer.setIp (c.regs.ip + 1)).returnFromInterrupt =
      (c.syncTimer.setIp (c.regs.ip + 1)).popFrame := by
    apply returnFromInterrupt_of_not_atIrqFrame
    have none : (c.syncTimer.setIp (c.regs.ip + 1)).irqFrames = [] := irqFrames
    rw [none]
    intro frame member
    cases member
  have queue : (c.syncTimer.setIp (c.regs.ip + 1)).popFrame.retire.bus.irqQueue = [] :=
    (FlatBus.irqQueue_ticks c.bus c.ticksOwed).trans irqQueue
  rw [step_of_stands running stands (congrArg Outcome.ok returned), trap,
    betweenInstructions_of_noIrq queue]
  rfl

end Cpu

namespace Trapping

open Cpu

variable {c d : Cpu FlatBus} {i : Instr}

theorem fetched (h : Trapping c) : Trapping c.syncTimer.fetched :=
  ⟨h.running, h.trap, h.unprefixed, (FlatBus.irqQueue_ticks c.bus c.ticksOwed).trans h.irqQueue,
    h.irqFrames⟩

theorem exec (h : Trapping c) (steppable : i.Steppable) (silent : c.raised? i = none)
    (done : c.exec i = .ok d) : Trapping d := by
  have steady := steady_of_exec steppable done
  have rep : c.prefixes.rep = none := by
    have unprefixed := h.unprefixed
    cases rep : c.prefixes.rep with
    | none => rfl
    | some mode => simp [Prefixes.isPending, rep] at unprefixed
  have prefixes := prefixes_exec steppable rep
  have halted := c.halted_exec steppable.notHalt
  rw [done] at prefixes halted
  refine ⟨halted.trans h.running, (exec_untrapped steppable silent done).2.trans h.trap, ?_,
    (FlatBus.irqQueue_access steady.bus).trans h.irqQueue, steady.irqFrames.trans h.irqFrames⟩
  exact (congrArg Prefixes.isPending prefixes).trans h.unprefixed

theorem retire (h : Trapping c) : Trapping c.retire := by
  refine ⟨h.running, h.trap, ?_, h.irqQueue, h.irqFrames⟩
  change c.prefixes.retire.isPending = false
  rw [Prefixes.retire]
  split
  · exact h.unprefixed
  · rfl

/-- The same instruction with the trap and without. -/
theorem step (h : Trapping c) (steppable : c.syncTimer.fetch.instr.Steppable)
    (silent : c.syncTimer.fetched.raised? c.syncTimer.fetch.instr = none) :
    ∃ next, Trapping next ∧ c.untrapped.step = .ok next.untrapped ∧
      c.step = next.singleStepTrap := by
  obtain ⟨d, done⟩ := exec_of_silent silent
  have next := (h.fetched.exec steppable silent done).retire
  refine ⟨d.retire, next, ?_, ?_⟩
  · have alone := (exec_untrapped steppable silent done).1
    have advanced : c.untrapped.syncTimer.advance = .ok d.untrapped.retire := by
      rw [advance_of_running (c := c.untrapped.syncTimer) h.running]
      change (c.syncTimer.fetched.untrapped.exec c.syncTimer.fetch.instr).andThen _ = _
      rw [alone]
      rfl
    rw [step_eq, advanced, armed_of_running (c := c.untrapped.syncTimer) h.running]
    exact betweenInstructions_of_noIrq (c := d.untrapped.retire) next.irqQueue false
  · have trap : c.syncTimer.regs.flags.trap = true := h.trap
    rw [step_eq, advance_of_running (c := c.syncTimer) h.running, done,
      armed_of_running (c := c.syncTimer) h.running, trap]
    refine (betweenInstructions_of_noIrq next.irqQueue true).trans ?_
    rw [trapIf, next.unprefixed]
    rfl

end Trapping

section

variable {c next : Cpu FlatBus}

theorem readFar_trapVector (same : ∀ byte ∈ trapBytes c.bus,
      next.bus.memory.get byte = c.bus.memory.get byte) :
    Bus.readFar next.bus (vectorAddress trapVector) =
      Bus.readFar c.bus (vectorAddress trapVector) := by
  have slot : ∀ byte ∈ slotBytes trapVector,
      next.bus.memory.get byte = c.bus.memory.get byte := fun byte member =>
    same byte (List.mem_cons_of_mem _ member)
  have offset := Memory.readWord_congr fun byte member => slot byte (List.mem_append_left _ member)
  have segment := Memory.readWord_congr fun byte member =>
    slot byte (List.mem_append_right _ member)
  exact Prod.ext offset segment

/-- A handler that returns at once undoes the entry. -/
theorem Trapping.step_handler (h : Trapping next) (target : UInt16 × UInt16)
    (iret : next.bus.memory.get (physical target.1 target.2) = 0xCF)
    (ram : ∀ byte ∈ frameBytes next.regs.ss next.regs.sp, isRam byte)
    (apart : physical target.1 target.2 ∉ frameBytes next.regs.ss next.regs.sp) :
    ∃ back, (next.enterInterrupt target Flags.maskInterrupts).step = .ok back ∧
      back.regs = next.regs ∧
      Memory.AgreeOutside (frameBytes next.regs.ss next.regs.sp) next.bus.memory
        back.bus.memory := by
  generalize entry : next.enterInterrupt target Flags.maskInterrupts = entered
  have regs := next.regs_enterInterrupt target Flags.maskInterrupts
  have pushed : (next.enterInterrupt target Flags.maskInterrupts).bus.memory =
      next.bus.memory.pushFrame next.regs := next.memory_enterInterrupt target _
  have steady := ((Cpu.Plain.refl next).enterInterrupt target Flags.maskInterrupts)
  rw [entry] at regs pushed steady
  have memory : entered.syncTimer.bus.memory = next.bus.memory.pushFrame next.regs :=
    entered.memory_syncTimer.trans pushed
  have agree := next.bus.memory.agreeOutside_pushFrame next.regs
  have stands : entered.syncTimer.Stands .iret := by
    have place : entered.regs.codeAddress = physical target.1 target.2 := by rw [regs]; rfl
    have kept := agree (physical target.1 target.2) (by rwa [wrapAddress_physical])
    change Opcode.ofByte _ (entered.syncTimer.bus.memory.get entered.regs.codeAddress) = _
    rw [place, memory, kept, iret]
    cases entered.syncTimer.config.variant <;> rfl
  have step := Cpu.step_iret (steady.halted.trans h.running) (by rw [regs]; rfl)
    ((FlatBus.irqQueue_access steady.bus).trans h.irqQueue) (steady.irqFrames.trans h.irqFrames)
    stands
  have held : entered.syncTimer.bus.memory.HoldsFrame next.regs := by
    rw [memory]
    exact next.bus.memory.holdsFrame_pushFrame ram
  have ss : entered.regs.ss = next.regs.ss := by rw [regs]
  have sp : entered.regs.sp = next.regs.sp - 6 := by rw [regs]
  have popped := (entered.syncTimer.setIp (entered.regs.ip + 1)).regs_popFrame ss sp held
  refine ⟨_, step, popped.trans ?_, ?_⟩
  · change { entered.regs with
      ip := next.regs.ip, cs := next.regs.cs, flags := next.regs.flags, sp := next.regs.sp } = _
    rw [regs]
  · change Memory.AgreeOutside _ _ entered.syncTimer.bus.memory
    rw [memory]
    exact agree

end

/-- The step of an instruction under the trap flag enters the handler of the trap, and the step of
the handler gives the processor back as the instruction alone leaves it. -/
theorem single_step_transparent {c : Cpu FlatBus} (trapping : Trapping c)
    (handler : ReturnsAtOnce c.bus trapVector) (traceable : Traceable c) :
    c.untrapped.step = .ok c.alone ∧ ∃ entered back,
      c.step = .ok entered ∧
        entered.regs =
          { c.alone.regs with
            sp := c.alone.regs.sp - 6
            cs := (Bus.readFar c.bus (vectorAddress trapVector)).2
            ip := (Bus.readFar c.bus (vectorAddress trapVector)).1
            flags := c.alone.regs.flags.maskInterrupts } ∧
        entered.step = .ok back ∧ back.regs = c.alone.regs.withTrap true ∧
        Memory.AgreeOutside c.trapFrame c.alone.bus.memory back.bus.memory := by
  obtain ⟨next, trapped, alone, step⟩ := trapping.step traceable.instr traceable.silent
  have isAlone : c.alone = next.untrapped := congrArg Outcome.cpu alone
  have kept : ∀ byte ∈ trapBytes c.bus,
      next.bus.memory.get byte = c.bus.memory.get byte := by
    intro byte member
    exact (congrArg (·.bus.memory.get byte) isAlone.symm).trans (traceable.keeps byte member)
  have frame : frameBytes next.regs.ss next.regs.sp = c.trapFrame := by
    rw [Cpu.trapFrame, isAlone]
    rfl
  have vector := readFar_trapVector kept
  have found : next.handler trapVector =
      .ok (Bus.readFar c.bus (vectorAddress trapVector)).swap := by
    rw [← vector]
    exact Cpu.handler_of_ne_zero (vector ▸ handler.nonzero)
  have entered : next.singleStepTrap = .ok (next.enterInterrupt
      (Bus.readFar c.bus (vectorAddress trapVector)).swap Flags.maskInterrupts) :=
    Cpu.interrupt_of_handler found _
  have iret : next.bus.memory.get (handlerByte c.bus trapVector) = 0xCF :=
    (kept _ List.mem_cons_self).trans handler.handler
  obtain ⟨back, returned, regs, agree⟩ := trapped.step_handler
    (Bus.readFar c.bus (vectorAddress trapVector)).swap iret (frame ▸ traceable.ram)
    (frame ▸ traceable.apart _ List.mem_cons_self)
  refine ⟨alone.trans (congrArg Outcome.ok isAlone.symm), _, back, step.trans entered, ?_,
    returned, ?_, ?_⟩
  · rw [isAlone]
    exact next.regs_enterInterrupt _ _
  · rw [isAlone, regs, ← trapped.trap]
    rfl
  · rw [← frame, isAlone]
    exact agree

/-- About to fill a byte, with the trap's handler at 0000:0030. -/
def tracedStart : Cpu FlatBus where
  regs := { ip := 0x10, di := 0x50, sp := 0x48, flags := { trap := true } }
  bus := { memory := ((Memory.zero.set 0x10 0xAA).set 0x4 0x30).set 0x30 0xCF }
  config := .ofRatio .i8086 4 false

def tracedAlone : Cpu FlatBus :=
  ((tracedStart.untrapped.syncTimer.setIp 0x11).string .stos .byte).retire

theorem alone_tracedStart : tracedStart.alone = tracedAlone := by
  have stands : tracedStart.untrapped.syncTimer.Stands (.string .stos .byte) := by decide
  rw [Cpu.alone, Cpu.step_of_stands rfl stands rfl]
  exact congrArg Outcome.cpu (Cpu.betweenInstructions_of_off (c := tracedAlone) rfl false)

theorem fetch_tracedStart : tracedStart.syncTimer.fetch.instr = .string .stos .byte := by
  have stands : tracedStart.syncTimer.Stands (.string .stos .byte) := by decide
  rw [Cpu.fetch_of_stands stands]

theorem trapping_tracedStart : Trapping tracedStart :=
  ⟨rfl, rfl, rfl, rfl, rfl⟩

theorem returnsAtOnce_tracedStart : ReturnsAtOnce tracedStart.bus trapVector :=
  ⟨by decide, by decide⟩

theorem traceable_tracedStart : Traceable tracedStart where
  instr := by
    rw [fetch_tracedStart]
    exact ⟨rfl, rfl, nofun⟩
  silent := by rw [fetch_tracedStart]; rfl
  keeps := by
    rw [alone_tracedStart]
    exact List.all_iff_forall_prop.1 (by decide)
  ram := by
    rw [Cpu.trapFrame, alone_tracedStart]
    exact List.all_iff_forall_prop.1 (by decide)
  apart := by
    rw [Cpu.trapFrame, alone_tracedStart]
    exact List.all_iff_forall_prop.1 (by decide)

theorem single_step_transparent_fill :
    Trapping tracedStart ∧ ReturnsAtOnce tracedStart.bus trapVector ∧ Traceable tracedStart ∧
      tracedStart.untrapped.step = .ok tracedAlone ∧
      ∃ entered back, tracedStart.step = .ok entered ∧ entered.step = .ok back ∧
        back.regs = tracedAlone.regs.withTrap true ∧
        Memory.AgreeOutside (frameBytes 0 0x48) tracedAlone.bus.memory back.bus.memory := by
  obtain ⟨alone, entered, back, step, _, returned, regs, agree⟩ := single_step_transparent
    trapping_tracedStart returnsAtOnce_tracedStart traceable_tracedStart
  rw [Cpu.trapFrame] at agree
  rw [alone_tracedStart] at alone regs agree
  exact ⟨trapping_tracedStart, returnsAtOnce_tracedStart, traceable_tracedStart, alone, entered,
    back, step, returned, regs, agree⟩

end RealMode
