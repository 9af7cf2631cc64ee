import RealMode.Proofs.Arithmetic.Division
import RealMode.Proofs.Cpu.Window
import RealMode.Proofs.Decode.Layout

/-!
What an instruction consumes of the fetch window. To read it from the window, one byte after the
other, never asks for a byte behind the window, so that the bytes fetched one by one from there on
are not part of any instruction. A known instruction consumes just what its layout says.
-/

namespace RealMode
namespace Cpu

variable {β : Type} [Bus β]

/-- What the bytes of the instruction at CS:IP are for. -/
def layout (c : Cpu β) : List Part :=
  (Opcode.ofByte c.config.variant (c.codeByte c.window 0)).layout c.modRM

/-- The next instruction if other bytes are found behind the window. -/
def fetchBefore (c : Cpu β) (behind : Code) : Decoded :=
  decode c.config.variant fun i => if h : i < c.window.size then c.window.get i h else behind i

theorem shows_window (c : Cpu β) : Reading.Shows c.window (c.codeByte c.window) := by
  intro i inside
  rw [codeByte, dif_pos inside]
  rfl

variable [MemoryBus β]

theorem size_window (c : Cpu β) : c.window.size = fetchWindow := by
  have window : c.window = (MemoryBus.memory c.bus).readBlock c.regs.codeAddress fetchWindow :=
    MemoryBus.readBlock c.bus _ _
  rw [window]
  exact Memory.size_readBlock _ _ (by decide)

/-- The bytes behind the window have no part in the instruction. -/
theorem fetchBefore_eq (c : Cpu β) (behind : Code) : c.fetchBefore behind = c.fetch := by
  apply decode_congr
  intro i consumed
  have inside : i < c.window.size := by
    rw [c.size_window]
    exact Nat.lt_of_lt_of_le consumed c.length_fetch_le
  rw [codeByte, dif_pos inside, dif_pos inside]

/-- To read the instruction at CS:IP is to take so many bytes of the window. -/
theorem reads_fetch (c : Cpu β) :
    ∃ parts, Reading.instr c.config.variant c.window [] = some (c.fetch.instr, parts) ∧
      parts.length = c.fetch.length ∧ parts <+: c.layout ∧
      (c.fetch.instr ≠ .unknown → parts = c.layout) := by
  have covered : c.fetch.length ≤ c.window.size := by
    rw [c.size_window]
    exact c.length_fetch_le
  have reads : Reading.Reads _ (c.codeByte c.window) 0 c.fetch c.layout := Reading.reads_instr
  cases reads with
  | whole takes length =>
      rw [Nat.zero_add] at length
      refine ⟨c.layout, takes _ [] c.shows_window rfl ?_, length.symm, List.prefix_rfl,
        fun _ => rfl⟩
      rw [Nat.zero_add, ← length]
      exact covered
  | unknown parts takes begins decoded =>
      rw [Nat.zero_add] at decoded
      rw [decoded] at covered ⊢
      refine ⟨parts, takes _ [] c.shows_window rfl ?_, rfl, begins, absurd rfl⟩
      rw [Nat.zero_add]
      exact covered

/-- No instruction outruns the window: whatever stands in memory, the bytes of the window that have
been read before are enough to go on, up to the end of the instruction, and IP moves behind them. A
known instruction has its opcode, a ModRM byte and displacement if it has any, and its immediates,
in this order, and nothing else. -/
theorem window_suffices (c : Cpu β) :
    ∃ parts, Reading.instr c.config.variant c.window [] = some (c.fetch.instr, parts) ∧
      parts.length ≤ fetchWindow ∧
      c.dispatch = (c.setIp (c.regs.ip + parts.length.toUInt16)).exec c.fetch.instr ∧
      (∀ behind, c.fetchBefore behind = c.fetch) ∧
      parts <+: c.layout ∧
      (c.fetch.instr ≠ .unknown → parts = c.layout ∧
        parts.length = 1 +
          (if (Opcode.ofByte c.config.variant (c.codeByte c.window 0)).hasModRM then
            1 + c.modRM.displacementLength else 0) +
          (Opcode.ofByte c.config.variant (c.codeByte c.window 0)).immediateLength c.modRM) := by
  obtain ⟨parts, read, length, begins, whole⟩ := c.reads_fetch
  refine ⟨parts, read, ?_, ?_, c.fetchBefore_eq, begins, fun known => ?_⟩
  · rw [length]
    exact c.length_fetch_le
  · rw [length]
    rfl
  · have all := whole known
    refine ⟨all, ?_⟩
    rw [all, layout, Opcode.length_layout]

end Cpu

/-- A move of a word to an address of its own, which is as long as an instruction can be. -/
def longestMove : Cpu FlatBus where
  regs := { ip := 0x10 }
  bus := { memory := (((((Memory.zero.set 0x10 0xC7).set 0x11 0x06).set 0x12 0x34).set 0x13
    0x12).set 0x14 0xCD).set 0x15 0xAB }
  config := .ofRatio .i8086 4 false

/-- It fills the window. -/
theorem window_suffices_move :
    longestMove.fetch.instr ≠ .unknown ∧
      Reading.instr .i8086 longestMove.window [] =
        some (.movImm .word (.mem (.direct 0x1234)) 0xABCD,
          [.opcode, .modRM, .displacement, .displacement, .immediate, .immediate]) := by
  have fetch : longestMove.fetch = ⟨.movImm .word (.mem (.direct 0x1234)) 0xABCD, 6⟩ := by
    rw [Cpu.fetch_linear]
    decide
  have known : longestMove.fetch.instr ≠ .unknown := by
    rw [fetch]
    exact Instr.noConfusion
  have opcode : longestMove.codeByte longestMove.window 0 = 0xC7 := by
    rw [longestMove.codeByte_window (by decide)]
    decide
  have form : longestMove.codeByte longestMove.window 1 = 0x06 := by
    rw [longestMove.codeByte_window (by decide)]
    decide
  have layout : longestMove.layout =
      [.opcode, .modRM, .displacement, .displacement, .immediate, .immediate] := by
    rw [Cpu.layout, Cpu.modRM, Opcode.modRM, opcode, form]
    decide
  obtain ⟨parts, read, -, -, -, -, whole⟩ := longestMove.window_suffices
  rw [(whole known).1, layout, fetch] at read
  exact ⟨known, read⟩

end RealMode
