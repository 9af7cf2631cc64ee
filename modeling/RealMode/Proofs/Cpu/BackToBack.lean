import RealMode.Proofs.Cpu.Window
import RealMode.Proofs.Interrupt.Missing
import RealMode.Proofs.String.Elements

/-!
Instructions back to back. If a step does an instruction and enters no handler, a program sees of it
what the instruction has done and nothing more: paying timer ticks and asking for interrupts shows
neither in registers nor in memory.
-/

namespace RealMode

open MemoryBus (memory)

/-- Such an instruction neither enters a handler nor returns from one. -/
structure Instr.GoesOn (i : Instr) : Prop where
  silent : i.mayRaise = false
  notReturn : i ≠ .iret

namespace Cpu

variable {β : Type} [Bus β]

/-- The next instruction, as the step will find it. -/
def next (c : Cpu β) : Decoded :=
  c.syncTimer.fetch

/-- The state in which the next instruction is about to do its work. -/
abbrev ahead (c : Cpu β) : Cpu β :=
  c.syncTimer.fetched

/-- The offset behind the next instruction. -/
def behind (c : Cpu β) : UInt16 :=
  c.regs.ip + c.next.length.toUInt16

theorem regs_ahead (c : Cpu β) : c.ahead.regs = { c.regs with ip := c.behind } := rfl

/-- The step does the instruction and enters no handler. -/
structure Performs (c : Cpu β) (i : Instr) : Prop where
  running : c.halted = false
  instr : c.next.instr = i
  unentered : ∀ e ∈ c.stepEvents, ∀ line, e.kind ≠ .entry line

variable {c : Cpu β} {i : Instr}

theorem next_of_stands [MemoryBus β] (stands : c.syncTimer.Stands i) : c.next = ⟨i, 1⟩ :=
  fetch_of_stands stands

theorem exec_of_goesOn (c : Cpu β) (goesOn : i.GoesOn) :
    c.instrEvents i = [] ∧ c.exec i = .ok (c.exec i).cpu := by
  have silent : c.raised? i = none := by
    cases raised : c.raised? i with
    | none => rfl
    | some r => exact absurd (goesOn.silent.symm.trans (mayRaise_of_raised raised)) Bool.false_ne_true
  obtain ⟨d, done⟩ := exec_of_silent silent
  rw [done, instrEvents, if_neg goesOn.notReturn, silent]
  exact ⟨rfl, rfl⟩

theorem advance_of_next {d : Cpu β} (running : c.halted = false)
    (done : c.ahead.exec c.next.instr = .ok d) : c.syncTimer.advance = .ok d.retire := by
  rw [advance_of_running (c := c.syncTimer) running]
  change (c.ahead.exec c.next.instr).andThen _ = _
  rw [done]
  rfl

/-- When the instruction is done there is only what comes between two instructions. -/
theorem boundary_step (running : c.halted = false) (instr : c.next.instr = i)
    (goesOn : i.GoesOn) :
    Boundary (c.ahead.exec i).cpu.retire c.regs.flags.trap c.stepEvents c.step := by
  obtain ⟨events, done⟩ := c.ahead.exec_of_goesOn goesOn
  have isRunning : c.syncTimer.halted = false := running
  have advanced : c.syncTimer.advance = .ok (c.ahead.exec i).cpu.retire :=
    advance_of_next running (by rw [instr, ← done])
  have silent : c.syncTimer.advanceEvents = [] := by
    rw [advanceEvents, if_neg (by rw [isRunning]; exact Bool.false_ne_true)]
    change c.ahead.instrEvents c.next.instr = []
    rw [instr, events]
  rw [stepEvents, silent, step_eq, advanced, armed_of_running isRunning]
  exact boundary _ _

/-- With trap and interrupts off nothing happens there at all. -/
theorem Boundary.events_of_masked {events : List (Event β)} {o : Outcome β}
    (between : Boundary c false events o) (masked : c.regs.flags.interrupt = false) :
    events = [] := by
  cases between with
  | nothing | missingTrap => rfl
  | trap _ due => cases due
  | accepted on | refused on => exact absurd (masked.symm.trans on) Bool.false_ne_true

/-- Nothing comes between this instruction and the next one: the trap is off, and no interrupt of
the hardware is accepted. -/
structure Unhindered (c : Cpu β) : Prop where
  running : c.halted = false
  trap : c.regs.flags.trap = false
  unserved : ∀ e ∈ c.stepEvents, ∀ line, e.kind ≠ .entry (some line)

theorem Unhindered.performs (h : c.Unhindered) (instr : c.next.instr = i) (goesOn : i.GoesOn) :
    c.Performs i := by
  have between := boundary_step h.running instr goesOn
  rw [h.trap] at between
  exact ⟨h.running, instr, between.unentered_of_unserved h.unserved⟩

theorem Performs.unhindered (h : c.Performs i) (trap : c.regs.flags.trap = false) :
    c.Unhindered :=
  ⟨h.running, trap, fun e member line => h.unentered e member (some line)⟩

theorem Performs.of_masked (running : c.halted = false) (instr : c.next.instr = i)
    (goesOn : i.GoesOn) (trap : c.regs.flags.trap = false)
    (masked : (c.ahead.exec i).cpu.regs.flags.interrupt = false) : c.Performs i := by
  have between := boundary_step running instr goesOn
  rw [trap] at between
  refine ⟨running, instr, ?_⟩
  rw [between.events_of_masked masked]
  exact fun _ member => absurd member List.not_mem_nil

/-- With trap and interrupts off nothing comes after the instruction. -/
theorem step_of_masked {d : Cpu β} (running : c.halted = false)
    (trap : c.regs.flags.trap = false) (done : c.ahead.exec c.next.instr = .ok d)
    (masked : d.regs.flags.interrupt = false) : c.step = .ok d.retire := by
  have unarmed : c.syncTimer.armed = false :=
    (armed_of_running (c := c.syncTimer) running).trans trap
  rw [step_eq, advance_of_next running done, unarmed]
  exact betweenInstructions_of_off (c := d.retire) masked false

variable [MemoryBus β]

theorem next_linear (c : Cpu β) :
    c.next = decode c.config.variant fun i => (memory c.bus).get (c.regs.codeAddress + i.toUInt32) := by
  rw [next, fetch_linear, memory_syncTimer]
  rfl

theorem memory_ahead (c : Cpu β) : memory c.ahead.bus = memory c.bus :=
  c.memory_syncTimer

/-- All that a program sees of such a step is what the instruction has done. -/
theorem Performs.step_eq (h : c.Performs i) (goesOn : i.GoesOn) :
    ∃ bus, memory bus = memory (c.ahead.exec i).cpu.bus ∧
      c.step.cpu = { (c.ahead.exec i).cpu.retire with bus } := by
  obtain ⟨bus, asked, done⟩ := (boundary_step h.running h.instr goesOn).unentered h.unentered
  exact ⟨bus, asked.memory, done⟩

theorem Performs.regs_step (h : c.Performs i) (goesOn : i.GoesOn) :
    c.step.cpu.regs = (c.ahead.exec i).cpu.regs := by
  obtain ⟨_, _, done⟩ := h.step_eq goesOn
  rw [done]
  rfl

theorem Performs.halted_step (h : c.Performs i) (goesOn : i.GoesOn) (notHalt : i ≠ .hlt) :
    c.step.cpu.halted = false := by
  obtain ⟨_, _, done⟩ := h.step_eq goesOn
  rw [done]
  exact (c.ahead.halted_exec notHalt).trans h.running

theorem Performs.memory_step (h : c.Performs i) (goesOn : i.GoesOn) :
    memory c.step.cpu.bus = memory (c.ahead.exec i).cpu.bus := by
  obtain ⟨_, same, done⟩ := h.step_eq goesOn
  rw [done, same]

theorem Performs.config_step (h : c.Performs i) (goesOn : i.GoesOn) :
    c.step.cpu.config = c.config := by
  obtain ⟨_, _, done⟩ := h.step_eq goesOn
  rw [done]
  exact (c.ahead.steady_exec goesOn.notReturn).config

/-- Where the next instruction is one byte long, it may be looked for when this one has done its
work. -/
theorem Performs.stands_step (h : c.Performs i) (goesOn : i.GoesOn) {j : Instr}
    (found : Opcode.ofByte c.config.variant ((memory (c.ahead.exec i).cpu.bus).get
      (c.ahead.exec i).cpu.regs.codeAddress) = .plain j) : c.step.cpu.syncTimer.Stands j := by
  have config : c.step.cpu.syncTimer.config = c.config := h.config_step goesOn
  have regs : c.step.cpu.syncTimer.regs = (c.ahead.exec i).cpu.regs := h.regs_step goesOn
  rw [Stands, memory_syncTimer, h.memory_step goesOn, regs, config]
  exact found

end Cpu
end RealMode
