import RealMode.Proofs.Cpu.BackToBack
import RealMode.Proofs.Stack.Words

/-!
One word on the stack. Whichever instruction pushes it, a step that does so leaves SP two bytes
lower, the word there, and the rest as it was. Of a register it is the value that it has, and of SP
in the short form the one that it gets.
-/

namespace RealMode

open MemoryBus (memory)

variable {β : Type} [Bus β]

namespace Cpu

theorem exec_pushReg (c : Cpu β) (r : Fin 8) : (c.exec (.pushReg r)).cpu =
    (c.push (if Reg16.ofIndex r = .sp then c.regs.sp - 2 else c.regs.get (.ofIndex r))).spend 11 := by
  change c.pushReg r = _
  rw [pushReg]
  cases Reg16.ofIndex r <;> rfl

/-- A register other than SP is pushed as it is, in either encoding. -/
theorem exec_push (c : Cpu β) {i : Instr} {r : Fin 8} (push : i = .pushReg r ∨ i = .pushRm (.reg r))
    (other : Reg16.ofIndex r ≠ .sp) :
    ∃ clocks, (c.exec i).cpu = (c.push (c.regs.get (.ofIndex r))).spend clocks := by
  rcases push with rfl | rfl
  · rw [exec_pushReg, if_neg other]
    exact ⟨11, rfl⟩
  · exact ⟨_, rfl⟩

end Cpu

/-- The instruction pushes one word and does nothing else. -/
def PushesOne (c : Cpu β) (i : Instr) (value : UInt16) : Prop :=
  ∃ clocks, (c.ahead.exec i).cpu = (c.ahead.push value).spend clocks

theorem pushesOne_reg (c : Cpu β) {r : Fin 8} (other : Reg16.ofIndex r ≠ .sp) :
    PushesOne c (.pushReg r) (c.ahead.regs.get (.ofIndex r)) :=
  c.ahead.exec_push (.inl rfl) other

namespace Cpu

variable {c : Cpu β} {i : Instr} {value : UInt16}

theorem Performs.of_push (running : c.halted = false) (instr : c.next.instr = i)
    (goesOn : i.GoesOn) (pushes : PushesOne c i value) (trap : c.regs.flags.trap = false)
    (masked : c.regs.flags.interrupt = false) : c.Performs i := by
  obtain ⟨clocks, same⟩ := pushes
  refine .of_masked running instr goesOn trap ?_
  rw [same]
  exact masked

variable [MemoryBus β]

/-- The step has pushed this word and done nothing else. -/
structure Pushes (c : Cpu β) (value : UInt16) : Prop where
  regs : c.step.cpu.regs = { c.regs with ip := c.behind, sp := c.regs.sp - 2 }
  prefixes : c.step.cpu.prefixes = c.prefixes.retire
  memory : memory c.step.cpu.bus = (memory c.bus).pushWords c.regs.ss c.regs.sp [value]

theorem Performs.pushes (h : c.Performs i) (goesOn : i.GoesOn) (pushes : PushesOne c i value) :
    c.Pushes value := by
  obtain ⟨clocks, same⟩ := pushes
  refine ⟨?_, ?_, ?_⟩
  · rw [h.regs_step goesOn, same]
    rfl
  · obtain ⟨_, _, done⟩ := h.step_eq goesOn
    rw [done, same]
    rfl
  · rw [h.memory_step goesOn, same]
    refine (c.ahead.memory_push value).trans ?_
    rw [memory_ahead]
    rfl

end Cpu
end RealMode
