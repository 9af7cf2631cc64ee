import Mathlib.Algebra.Ring.Int.Defs
import RealMode.Proofs.Arithmetic.Division
import RealMode.Proofs.Decode.Length

/-!
The address of a memory operand from the fields of its ModRM byte. The offset is a sum of registers
and a signed displacement in 16 bits, and the address a sum of segment and offset in 20 bits. It is
known from the registers of that sum and the segment alone.
-/

namespace RealMode

theorem toNat_signExtend (x : UInt8) :
    ((signExtend x).toNat : Int) = x.toInt8.toInt % 0x10000 := by
  revert x
  apply forall_byte
  decide +kernel

namespace ModRM

/-- The registers that a memory operand is the sum of. -/
def registers (m : ModRM) : List Reg16 :=
  match m.rm with
  | 0 => [.bx, .si]
  | 1 => [.bx, .di]
  | 2 => [.bp, .si]
  | 3 => [.bp, .di]
  | 4 => [.si]
  | 5 => [.di]
  | 6 => if m.mode = 0 then [] else [.bp]
  | 7 => [.bx]

/-- The number that the displacement stands for; only a single byte has a sign. -/
def displacement (m : ModRM) (code : Code) : Int :=
  match m.displacementLength with
  | 0 => 0
  | 1 => (code 2).toInt8.toInt
  | _ => (code.word 2).toNat

/-- The sum of the registers and the displacement, in 16 bits. -/
def offset (m : ModRM) (code : Code) (s : Registers) : Int :=
  ((m.registers.map fun r => ((s.get r).toNat : Int)).sum + m.displacement code) % 0x10000

/-- The stack segment if BP is one of the registers, and else the data segment. -/
def ownSegment (m : ModRM) : SegReg :=
  if .bp ∈ m.registers then .ss else .ds

variable {m : ModRM} {code : Code} {s : Registers}

theorem toNat_base (based : ¬ (m.mode = 0 ∧ m.rm = 6)) :
    (((AddressBase.ofIndex m.rm).offset s).toNat : Int) =
      (m.registers.map fun r => ((s.get r).toNat : Int)).sum % 0x10000 := by
  have single (x : UInt16) : (x.toNat : Int) = x.toNat % 0x10000 := by
    have bound := x.toNat_lt
    omega
  obtain ⟨mode, reg, rm⟩ := m
  match rm with
  | 0 | 1 | 2 | 3 =>
    simp [registers, AddressBase.ofIndex, AddressBase.offset, Registers.get, UInt16.toNat_add]
  | 4 | 5 | 7 =>
    simpa [registers, AddressBase.ofIndex, AddressBase.offset, Registers.get] using single _
  | 6 =>
    have there : mode ≠ 0 := fun here => based ⟨here, rfl⟩
    simpa [registers, AddressBase.ofIndex, AddressBase.offset, Registers.get, there] using single _

theorem toNat_offset (inMemory : m.isRegister = false) :
    (((MemOperand.ofModRM m code).offset s).toNat : Int) = m.offset code s := by
  have byte := toNat_signExtend (code 2)
  have word := (code.word 2).toNat_lt
  obtain ⟨mode, reg, rm⟩ := m
  match mode with
  | 0 =>
    by_cases direct : rm = 6
    · subst direct
      change ((code.word 2).toNat : Int) = (0 + (code.word 2).toNat) % 0x10000
      omega
    · have base := toNat_base (m := ⟨0, reg, rm⟩) (s := s) fun both => direct both.2
      have other : rm.val ≠ 6 := fun same => direct (Fin.ext same)
      simp only [MemOperand.ofModRM, offset, displacement, displacementLength, other, if_false]
      rwa [Int.add_zero]
  | 1 =>
    have base := toNat_base (m := ⟨1, reg, rm⟩) (s := s) fun both => by cases both.1
    change (((AddressBase.ofIndex rm).offset s + signExtend (code 2)).toNat : Int) =
      (_ + (code 2).toInt8.toInt) % 0x10000
    rw [UInt16.toNat_add, Int.natCast_emod, Int.natCast_add, base, byte]
    omega
  | 2 =>
    have base := toNat_base (m := ⟨2, reg, rm⟩) (s := s) fun both => by cases both.1
    change (((AddressBase.ofIndex rm).offset s + code.word 2).toNat : Int) =
      (_ + (code.word 2).toNat) % 0x10000
    rw [UInt16.toNat_add, Int.natCast_emod, Int.natCast_add, base]
    omega
  | 3 => cases inMemory

theorem segment_ofModRM (inMemory : m.isRegister = false) :
    (MemOperand.ofModRM m code).segment = m.ownSegment := by
  obtain ⟨mode, reg, rm⟩ := m
  match mode with
  | 0 => match rm with
    | 0 | 1 | 2 | 3 | 4 | 5 | 6 | 7 => rfl
  | 1 | 2 => match rm with
    | 0 | 1 | 2 | 3 | 4 | 5 | 6 | 7 => rfl
  | 3 => cases inMemory

end ModRM

namespace Cpu

variable {β : Type} [Bus β]

/-- The memory operand of the instruction at CS:IP lies in the segment that a prefix names, or else
in its own. -/
def operandSegment (c : Cpu β) : SegReg :=
  c.prefixes.segment.getD c.modRM.ownSegment

variable {c e : Cpu β}

theorem rmOperand_of_register (inRegister : c.modRM.isRegister = true) :
    c.rmOperand = .reg c.modRM.rm := by
  rw [rmOperand, Operand.ofModRM, if_pos inRegister]

theorem rmOperand_of_memory (inMemory : c.modRM.isRegister = false) :
    c.rmOperand = .mem (.ofModRM c.modRM (c.codeByte c.window)) := by
  rw [rmOperand, Operand.ofModRM, inMemory]
  rfl

/-- Segment and offset of a memory operand meet in 20 bits. -/
theorem toNat_locate (inMemory : c.modRM.isRegister = false) :
    ∃ address, c.locate c.rmOperand = .mem address ∧
      (address.toNat : Int) = ((c.regs.seg c.operandSegment).toNat * 16 +
        c.modRM.offset (c.codeByte c.window) c.regs) % 0x100000 := by
  refine ⟨c.address (.ofModRM c.modRM (c.codeByte c.window)), ?_, ?_⟩
  · rw [rmOperand_of_memory inMemory, locate]
  · rw [address, toNat_physical, ModRM.segment_ofModRM inMemory, ← ModRM.toNat_offset inMemory]
    rfl

theorem get_fetched (c : Cpu β) (r : Reg16) : c.fetched.regs.get r = c.regs.get r := by
  cases r <;> rfl

/-- The operand is known from the bytes in front of the immediate. -/
theorem rmOperand_of_agree
    (agree : Code.AgreeOn (c.codeByte c.window) (e.codeByte e.window) 0
      (Opcode.immediateAt c.modRM)) :
    e.modRM = c.modRM ∧ e.rmOperand = c.rmOperand := by
  have modRM : e.modRM = c.modRM := Opcode.modRM_congr agree (Nat.le_add_right 2 _)
  refine ⟨modRM, ?_⟩
  rw [rmOperand, rmOperand, modRM]
  exact Operand.ofModRM_congr (agree.mono (Nat.zero_le 2) (Nat.le_refl _))

/-- Nothing but the registers of the sum and the segment is in the place of an operand. -/
theorem locate_congr (operand : e.rmOperand = c.rmOperand)
    (override : e.prefixes.segment = c.prefixes.segment)
    (segments : ∀ r, e.regs.seg r = c.regs.seg r)
    (registers : c.modRM.isRegister = false →
      ∀ r ∈ c.modRM.registers, e.regs.get r = c.regs.get r) :
    e.locate e.rmOperand = c.locate c.rmOperand := by
  rw [operand]
  cases inMemory : c.modRM.isRegister with
  | true =>
    rw [rmOperand_of_register inMemory]
    rfl
  | false =>
    have offset : (MemOperand.ofModRM c.modRM (c.codeByte c.window)).offset e.regs =
        (MemOperand.ofModRM c.modRM (c.codeByte c.window)).offset c.regs := by
      have same : c.modRM.registers.map (fun r => ((e.regs.get r).toNat : Int)) =
          c.modRM.registers.map fun r => ((c.regs.get r).toNat : Int) :=
        List.map_congr_left fun r member => by rw [registers inMemory r member]
      have numbers : _ = c.modRM.offset (c.codeByte c.window) e.regs :=
        ModRM.toNat_offset inMemory
      rw [ModRM.offset, same, ← ModRM.offset, ← ModRM.toNat_offset inMemory] at numbers
      exact UInt16.toNat_inj.1 (Int.ofNat_inj.1 numbers)
    rw [rmOperand_of_memory inMemory, locate, locate, address, address, offset, override, segments]

end Cpu
end RealMode
