import RealMode.Proofs.Cpu.Cycle
import RealMode.Proofs.Memory.Blocks

/-!
The bytes of an instruction as the decoder sees them. An instruction of a single byte is known from
its opcode alone, wherever it stands.
-/

namespace RealMode

/-- Instructions that every encoding of theirs gives in one byte. -/
def Instr.isAlone : Instr → Bool
  | .string _ _ | .hlt => true
  | _ => false

theorem Opcode.length_of_isAlone {v : Variant} {code : Code} {opcode : Opcode}
    (h : (opcode.decode v code).instr.isAlone = true) : (opcode.decode v code).length = 1 := by
  cases opcode with
  | plain instr => rfl
  | movToSeg =>
      simp only [decode, decodeMovToSeg] at h
      split at h <;> cases h
  | lea | loadFar | bound =>
      simp only [decode, withMemory] at h
      split at h <;> cases h
  | popRm | movImm =>
      simp only [decode] at h
      split at h <;> cases h
  | stepByte =>
      simp only [decode, decodeStepByte] at h
      split at h <;> cases h
  | stepWord =>
      simp only [decode, decodeStepWord, withMemory] at h
      split at h
      case h_4 | h_6 => split at h <;> cases h
      all_goals cases h
  | unary =>
      simp only [decode, decodeUnary] at h
      split at h <;> cases h
  | _ => cases h

namespace Cpu

open MemoryBus (memory)

variable {β : Type} [Bus β] [MemoryBus β]

theorem codeByte_window (c : Cpu β) {i : Nat} (h : i < fetchWindow) :
    c.codeByte c.window i = (memory c.bus).get (c.regs.codeAddress + i.toUInt32) := by
  have window : c.window = (memory c.bus).readBlock c.regs.codeAddress fetchWindow :=
    MemoryBus.readBlock c.bus _ _
  have size : c.window.size = fetchWindow := by
    rw [window]
    exact Memory.size_readBlock _ _ (by decide)
  have inside : i < c.window.size := by rwa [size]
  rw [codeByte, dif_pos inside]
  change c.window[i] = _
  simp only [window]
  exact Memory.getElem_readBlock _ _ (by decide) _

theorem codeByte_window_zero (c : Cpu β) :
    c.codeByte c.window 0 = (memory c.bus).get c.regs.codeAddress := by
  rw [c.codeByte_window (by decide)]
  exact congrArg _ (UInt32.add_zero _)

omit [MemoryBus β] in
theorem ip_fetched_of_isAlone {c : Cpu β} (h : c.fetch.instr.isAlone = true) :
    c.fetched.regs.ip = c.regs.ip + 1 := by
  have one : c.fetch.length = 1 := Opcode.length_of_isAlone h
  rw [fetched, one]
  rfl

omit [MemoryBus β] in
theorem ip_fetched_of_string {c : Cpu β} {op : StringOp} {w : Width}
    (h : c.fetch.instr = .string op w) : c.fetched.regs.ip = c.regs.ip + 1 :=
  ip_fetched_of_isAlone (by rw [h]; rfl)

/-- The byte at CS:IP is an instruction of its own. -/
def Stands (c : Cpu β) (i : Instr) : Prop :=
  Opcode.ofByte c.config.variant ((memory c.bus).get c.regs.codeAddress) = .plain i

instance (c : Cpu β) (i : Instr) : Decidable (c.Stands i) :=
  inferInstanceAs (Decidable (Opcode.ofByte _ _ = _))

theorem stands_of_set {c : Cpu β} {i : Instr} {m : Memory} {value : UInt8}
    (placed : memory c.bus = m.set c.regs.codeAddress value)
    (isInstr : Opcode.ofByte c.config.variant value = .plain i) : c.Stands i := by
  have byte : (memory c.bus).get c.regs.codeAddress = value := by
    rw [placed, Memory.get_set, if_pos rfl]
  rw [Stands, byte, isInstr]

theorem fetch_of_stands {c : Cpu β} {i : Instr} (h : c.Stands i) : c.fetch = ⟨i, 1⟩ := by
  rw [fetch, decode, codeByte_window_zero, h]
  rfl

theorem advance_of_stands {c : Cpu β} {i : Instr} (running : c.halted = false) (h : c.Stands i) :
    c.advance = ((c.setIp (c.regs.ip + 1)).exec i).andThen fun c => .ok c.retire := by
  rw [advance_of_running running, fetched, fetch_of_stands h]
  rfl

theorem advance_of_done {c d : Cpu β} {i : Instr} (running : c.halted = false) (h : c.Stands i)
    (done : (c.setIp (c.regs.ip + 1)).exec i = .ok d) : c.advance = .ok d.retire := by
  rw [advance_of_stands running h, done]
  rfl

theorem step_of_stands {c d : Cpu β} {i : Instr} (running : c.halted = false)
    (h : c.syncTimer.Stands i) (done : (c.syncTimer.setIp (c.regs.ip + 1)).exec i = .ok d) :
    c.step = d.retire.betweenInstructions c.regs.flags.trap := by
  rw [step_eq, advance_of_done (c := c.syncTimer) running h done,
    armed_of_running (c := c.syncTimer) running]
  rfl

end Cpu
end RealMode
