import RealMode.Proofs.Cpu.Synonyms
import RealMode.Proofs.Stack.Push

/-!
The two encodings of PUSH and POP of a register. They are synonyms but for one: of SP the short form
of PUSH pushes the value that it has afterwards, the form with a ModRM byte the one from before.
-/

namespace RealMode

open Cpu (memory_ahead)
open MemoryBus (memory)
open Opcode (modRM)

/-- An instruction on a register in its form with a ModRM byte and in its short form. -/
structure RegisterForms (opcode : UInt8) (field : Fin 8) (first : UInt8) (r : Fin 8) (a b : Code) :
    Prop where
  long : a 0 = opcode
  form : modRM a = ⟨3, field, r⟩
  short : b 0 = registerOpcode first r

section

variable {v : Variant} {r : Fin 8} {a b : Code}

theorem instr_of_pushForms (h : RegisterForms 0xFF 6 0x50 r a b) :
    (decode v a).instr = .pushRm (.reg r) ∧ (decode v b).instr = .pushReg r := by
  constructor
  · rw [instr_of_opcode h.long (Opcode.single v).stepWord]
    simp only [Opcode.decode, Opcode.decodeStepWord, Opcode.withOperand, h.form]
    rfl
  · exact instr_of_opcode h.short (Opcode.byRegister v r).pushReg

theorem instr_of_popForms (h : RegisterForms 0x8F 0 0x58 r a b) :
    (decode v a).instr = .popRm (.reg r) ∧ (decode v b).instr = .popReg r := by
  constructor
  · rw [instr_of_opcode h.long (Opcode.single v).popRm]
    simp only [Opcode.decode, Opcode.withOperand, h.form]
    rfl
  · exact instr_of_opcode h.short (Opcode.byRegister v r).popReg

end

variable {β : Type} [Bus β] [MemoryBus β] {places : List UInt32} {c d : Cpu β} {r : Fin 8}

/-- POP of a register does the same as 8F /0 and as 58 to 5F, and PUSH of one other than SP the same
as FF /6 and as 50 to 57. Of SP the two differ in the word they push, and in that alone. -/
theorem push_pop_encodings (same : Alike places c (d.setIp c.regs.ip)) (first : c.Unhindered)
    (second : d.Unhindered) :
    (RegisterForms 0x8F 0 0x58 r c.code d.code →
      (∀ byte ∈ wordBytes (physical c.regs.ss c.regs.sp), byte ∉ places) →
        Alike places c.step.cpu (d.step.cpu.setIp c.step.cpu.regs.ip)) ∧
    (RegisterForms 0xFF 6 0x50 r c.code d.code →
      c.Pushes (c.regs.get (.ofIndex r)) ∧
      d.Pushes (if Reg16.ofIndex r = .sp then c.regs.sp - 2 else c.regs.get (.ofIndex r)) ∧
      (Reg16.ofIndex r ≠ .sp → Alike places c.step.cpu (d.step.cpu.setIp c.step.cpu.regs.ip))) := by
  constructor
  · intro forms outside
    have pop := first.performs (instr_of_popForms forms).1 ⟨rfl, nofun⟩
    have alsoPop := second.performs (instr_of_popForms forms).2 ⟨rfl, nofun⟩
    refine same.equivalent (.pop r) pop alsoPop fun byte member => outside byte ?_
    exact List.append_nil (wordBytes (physical c.regs.ss c.regs.sp)) ▸ member
  · intro forms
    have push := first.performs (instr_of_pushForms forms).1 ⟨rfl, nofun⟩
    have alsoPush := second.performs (instr_of_pushForms forms).2 ⟨rfl, nofun⟩
    refine ⟨push.pushes ⟨rfl, nofun⟩ ⟨11, rfl⟩, ?_, fun other => ?_⟩
    · have sp : d.regs.sp = c.regs.sp := (congrArg Registers.sp same.regs :)
      have value : d.regs.get (.ofIndex r) = c.regs.get (.ofIndex r) :=
        (congrArg (·.get (.ofIndex r)) same.regs :)
      rw [← sp, ← value]
      exact alsoPush.pushes ⟨rfl, nofun⟩ ⟨11, d.ahead.exec_pushReg r⟩
    · exact same.equivalent (.push r other) push alsoPush fun _ member =>
        absurd member List.not_mem_nil

/-- POP SP at 10 and, the short form, at 20, and PUSH SP at 30 and 40. -/
def spForms (ip : UInt16) : Cpu FlatBus where
  regs := { sp := 0x100, ip }
  bus := { memory := (((((((Memory.zero.set 0x10 0x8F).set 0x11 0xC4).set 0x20 0x5C).set
    0x30 0xFF).set 0x31 0xF4).set 0x40 0x54).set 0x100 0x34).set 0x101 0x12 }
  config := .ofRatio .i8086 4 false

theorem popForms_spForms :
    RegisterForms 0x8F 0 0x58 4 (spForms 0x10).code (spForms 0x20).code := by
  constructor
  all_goals
    simp only [modRM, Cpu.code_linear _ (show 0 < fetchWindow by decide),
      Cpu.code_linear _ (show 1 < fetchWindow by decide)]
    decide

theorem pushForms_spForms :
    RegisterForms 0xFF 6 0x50 4 (spForms 0x30).code (spForms 0x40).code := by
  constructor
  all_goals
    simp only [modRM, Cpu.code_linear _ (show 0 < fetchWindow by decide),
      Cpu.code_linear _ (show 1 < fetchWindow by decide)]
    decide

/-- In either form POP SP leaves the word that was on the stack, and no trace of the stack pointer
that it went by. -/
theorem push_pop_encodings_sp :
    (spForms 0x10).Unhindered ∧ (spForms 0x20).Unhindered ∧
      (spForms 0x10).step.cpu.regs.sp = 0x1234 ∧
      Alike [] (spForms 0x10).step.cpu
        ((spForms 0x20).step.cpu.setIp (spForms 0x10).step.cpu.regs.ip) := by
  obtain ⟨long, short⟩ := instr_of_popForms (v := .i8086) popForms_spForms
  have performs : (spForms 0x10).Performs (.popRm (.reg 4)) :=
    .of_masked rfl long ⟨rfl, nofun⟩ rfl rfl
  have alsoPerforms : (spForms 0x20).Performs (.popReg 4) :=
    .of_masked rfl short ⟨rfl, nofun⟩ rfl rfl
  have first := performs.unhindered rfl
  have second := alsoPerforms.unhindered rfl
  have same : Alike [] (spForms 0x10) ((spForms 0x20).setIp 0x10) := .refl [] (spForms 0x10)
  have agree := (push_pop_encodings same first second).1 popForms_spForms fun _ _ =>
    List.not_mem_nil
  refine ⟨first, second, ?_, agree⟩
  -- for any processor, lest the memory of this one be looked into
  have popped (c : Cpu FlatBus) : (c.exec (.popRm (.reg 4))).cpu.regs.sp =
      (memory c.bus).readWord (physical c.regs.ss c.regs.sp) := rfl
  have low : (memory (spForms 0x10).bus).get 0x100 = 0x34 := by decide
  have high : (memory (spForms 0x10).bus).get (0x100 + 1) = 0x12 := by decide
  have place : physical (spForms 0x10).ahead.regs.ss (spForms 0x10).ahead.regs.sp = 0x100 := by
    decide
  rw [performs.regs_step ⟨rfl, nofun⟩, popped, memory_ahead, place, Memory.readWord_eq, low, high]
  decide

/-- PUSH SP: the two forms leave different words on the stack. -/
theorem push_sp_encodings_differ :
    RegisterForms 0xFF 6 0x50 4 (spForms 0x30).code (spForms 0x40).code ∧
      (spForms 0x30).Unhindered ∧ (spForms 0x40).Unhindered ∧
      Alike [] (spForms 0x30) ((spForms 0x40).setIp 0x30) ∧
      (memory (spForms 0x30).step.cpu.bus).readWord 0xFE = 0x100 ∧
      (memory (spForms 0x40).step.cpu.bus).readWord 0xFE = 0xFE := by
  obtain ⟨long, short⟩ := instr_of_pushForms (v := .i8086) pushForms_spForms
  have performs : (spForms 0x30).Performs (.pushRm (.reg 4)) :=
    .of_masked rfl long ⟨rfl, nofun⟩ rfl rfl
  have alsoPerforms : (spForms 0x40).Performs (.pushReg 4) :=
    .of_masked rfl short ⟨rfl, nofun⟩ rfl rfl
  have pushed := performs.pushes ⟨rfl, nofun⟩ (⟨11, rfl⟩ : PushesOne _ _ 0x100)
  have alsoPushed := alsoPerforms.pushes ⟨rfl, nofun⟩ (⟨11, rfl⟩ : PushesOne _ _ 0xFE)
  refine ⟨pushForms_spForms, performs.unhindered rfl, alsoPerforms.unhindered rfl,
    .refl [] (spForms 0x30), ?_, ?_⟩
  · rw [pushed.memory]
    exact Memory.readWord_writeWord_self _ _ (by decide) (by decide)
  · rw [alsoPushed.memory]
    exact Memory.readWord_writeWord_self _ _ (by decide) (by decide)

end RealMode
