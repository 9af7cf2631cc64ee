import RealMode.Proofs.Stack.Enter
import RealMode.Proofs.Stack.Push
import RealMode.Registers.Lemmas

/-!
Stack instructions that undo each other. The one pushes words, the other finds them at the same
slots, wherever the stack is and however it wraps, so that in RAM the two back to back leave the
registers as they were and no byte changed but the bytes pushed.
-/

namespace RealMode

open Cpu (memory_ahead regs_ahead)
open MemoryBus (memory)

namespace Instr

/-- How many words an instruction pushes that has a counterpart to pop them. -/
def stackWords : Instr → Nat
  | pushAll => 8
  | enter _ level => (level &&& 0x1F).toNat + 1
  | pushFlags | pushReg _ | pushRm _ | pushSeg _ | call _ | callRm _ => 1
  | callFar _ _ | callFarMem _ => 2
  | _ => 0

theorem stackWords_le (i : Instr) : i.stackWords ≤ 0x8000 := by
  cases i with
  | enter size level =>
      have bound := level.toNat_lt
      have less : (level &&& 0x1F).toNat ≤ level.toNat := Nat.and_le_left
      change (level &&& 0x1F).toNat + 1 ≤ _
      omega
  | _ => exact of_decide_eq_true rfl

def isCall : Instr → Bool
  | call _ | callRm _ | callFar _ _ | callFarMem _ => true
  | _ => false

/-- The bytes of arguments that a return gives up. -/
def released : Instr → UInt16
  | ret (some bytes) | retFar (some bytes) => bytes
  | _ => 0

/-- The second takes off the stack what the first has put there. -/
inductive Undoes : Instr → Instr → Prop
  | all : Undoes pushAll popAll
  | frame (size : UInt16) (level : UInt8) : Undoes (enter size level) leave
  | flags : Undoes pushFlags popFlags
  | register {i j : Instr} {r : Fin 8} (push : i = pushReg r ∨ i = pushRm (.reg r))
      (pop : j = popReg r ∨ j = popRm (.reg r)) (other : Reg16.ofIndex r ≠ .sp) : Undoes i j
  | segment (seg : SegReg) : Undoes (pushSeg seg) (popSeg seg)
  | near (displacement : UInt16) (arguments : Option UInt16) :
      Undoes (call displacement) (ret arguments)
  | nearRm (rm : Operand) (arguments : Option UInt16) : Undoes (callRm rm) (ret arguments)
  | far (segment offset : UInt16) (arguments : Option UInt16) :
      Undoes (callFar segment offset) (retFar arguments)
  | farMem (m : MemOperand) (arguments : Option UInt16) :
      Undoes (callFarMem m) (retFar arguments)

theorem Undoes.goesOn {i j : Instr} (pair : Undoes i j) : i.GoesOn ∧ j.GoesOn := by
  cases pair with
  | register push pop =>
      rcases push with rfl | rfl <;> rcases pop with rfl | rfl <;>
        exact ⟨⟨rfl, nofun⟩, ⟨rfl, nofun⟩⟩
  | _ => exact ⟨⟨rfl, nofun⟩, ⟨rfl, nofun⟩⟩

end Instr

variable {β : Type} [Bus β] [MemoryBus β]

/-- These words lie on the stack of `c` where it would have pushed them, and all else of its memory
is as it was. -/
structure Stacked (c : Cpu β) (words : List UInt16) (e : Cpu β) : Prop where
  ss : e.regs.ss = c.regs.ss
  memory : memory e.bus = (memory c.bus).pushWords c.regs.ss c.regs.sp words
  ram : ∀ byte ∈ pushedBytes c.regs.ss c.regs.sp words.length, isRam byte
  room : words.length ≤ 0x8000

theorem Stacked.top {c e : Cpu β} {words : List UInt16} (h : Stacked c words e) {k : Nat}
    (sp : e.regs.sp = slot c.regs.sp (k + 1)) {value : UInt16} (found : words[k]? = some value) :
    e.top = value := by
  obtain ⟨inside, same⟩ := List.getElem?_eq_some_iff.1 found
  rw [Cpu.top, MemoryBus.readWord, h.memory, h.ss, sp, ← same]
  exact Memory.readWord_pushWords _ h.ram h.room inside

/-- All but so many of these words have been popped again, and besides SP and IP no register has
changed. -/
structure Unwinding (c : Cpu β) (words : List UInt16) (ip : UInt16) (left : Nat) (e : Cpu β) : Prop
    extends Stacked c words e where
  regs : e.regs = { c.regs with ip, sp := slot c.regs.sp left }

namespace Unwinding

variable {c e : Cpu β} {words : List UInt16} {ip : UInt16} {k : Nat}

theorem release (h : Unwinding c words ip (k + 1) e) : Unwinding c words ip k (e.release 2) := by
  refine ⟨⟨h.ss, h.memory, h.ram, h.room⟩, ?_⟩
  rw [Cpu.release, h.regs, slot_succ_add_two]

/-- To pop the value that a register has anyway changes SP alone. -/
theorem popInto (h : Unwinding c words ip (k + 1) e) {r : Reg16}
    (found : words[k]? = some (c.regs.get r)) (other : r ≠ .sp) :
    Unwinding c words ip k (e.popInto r) := by
  have released := h.release
  have regs : (e.popInto r).regs = (e.release 2).regs := by
    change (e.release 2).regs.set r e.top = _
    rw [h.top (by rw [h.regs]) found, released.regs]
    cases r with
    | sp => exact absurd rfl other
    | _ => rfl
  refine ⟨⟨?_, h.memory, h.ram, h.room⟩, regs.trans released.regs⟩
  rw [regs]
  exact released.ss

theorem popped (h : Unwinding c words ip 0 e) :
    e.regs = { c.regs with ip, sp := c.regs.sp + 0 } := by
  rw [h.regs, slot_zero, UInt16.add_zero]

end Unwinding

/-- What it takes for `j` to undo `i`: some words are pushed, and where they still lie on the stack
and the registers are those that `i` has left, `j` restores the registers of before. -/
structure Undone (c : Cpu β) (i j : Instr) (words : List UInt16) : Prop where
  length : words.length = i.stackWords
  memory : memory (c.exec i).cpu.bus = (memory c.bus).pushWords c.regs.ss c.regs.sp words
  ss : (c.exec i).cpu.regs.ss = c.regs.ss
  ip : i.isCall = false → (c.exec i).cpu.regs.ip = c.regs.ip
  restored : ∀ e : Cpu β, e.regs = { (c.exec i).cpu.regs with ip := e.regs.ip } →
    Stacked c words e →
      (e.exec j).cpu.regs = { c.regs with
        ip := if i.isCall then c.regs.ip else e.regs.ip
        sp := c.regs.sp + j.released }
  kept : ∀ e : Cpu β, MemoryBus.memory (e.exec j).cpu.bus = MemoryBus.memory e.bus

namespace Cpu

variable (c : Cpu β)

omit [MemoryBus β] in
theorem regs_pushAll : c.pushAll.regs = { c.regs with sp := slot c.regs.sp 8 } :=
  c.regs_foldl_push
    [c.regs.ax, c.regs.cx, c.regs.dx, c.regs.bx, c.regs.sp, c.regs.bp, c.regs.si, c.regs.di]

omit [MemoryBus β] in
@[simp] theorem bus_popInto (r : Reg16) : (c.popInto r).bus = c.bus := rfl

omit [MemoryBus β] in
theorem bus_popAll : c.popAll.bus = c.bus := by
  simp only [popAll, List.foldl, spend, bus_popInto, release]

omit [MemoryBus β] in
@[simp] theorem flags_popInto (r : Reg16) : (c.popInto r).regs.flags = c.regs.flags :=
  (Registers.ip_flags_set _ r _).2

omit [MemoryBus β] in
theorem flags_popAll : c.popAll.regs.flags = c.regs.flags := by
  simp only [popAll, List.foldl, spend, flags_popInto, release]

theorem undone_all :
    Undone c .pushAll .popAll
      [c.regs.ax, c.regs.cx, c.regs.dx, c.regs.bx, c.regs.sp, c.regs.bp, c.regs.si, c.regs.di] where
  length := rfl
  memory := c.memory_foldl_push _
  ss := (congrArg Registers.ss c.regs_pushAll :)
  ip _ := (congrArg Registers.ip c.regs_pushAll :)
  restored := by
    intro e regs stacked
    have pushed : e.regs = { c.regs with ip := e.regs.ip, sp := slot c.regs.sp 8 } := by
      refine regs.trans ?_
      change { c.pushAll.regs with ip := e.regs.ip } = _
      rw [regs_pushAll]
    have start : Unwinding c _ e.regs.ip 8 e := ⟨stacked, pushed⟩
    have di := start.popInto (r := .di) rfl nofun
    have si := di.popInto (r := .si) rfl nofun
    have bp := si.popInto (r := .bp) rfl nofun
    have bx := bp.release.popInto (r := .bx) rfl nofun
    have dx := bx.popInto (r := .dx) rfl nofun
    have cx := dx.popInto (r := .cx) rfl nofun
    have ax := cx.popInto (r := .ax) rfl nofun
    exact ax.popped
  kept e := congrArg MemoryBus.memory e.bus_popAll

theorem undone_frame (size : UInt16) (level : UInt8) :
    Undone c (.enter size level) .leave
      ((memory c.bus).frameWords c.regs (level &&& 0x1F).toNat) where
  length := Memory.length_frameWords _ _ _
  memory := c.memory_enter size level
  ss := (congrArg Registers.ss (c.regs_enter size level) :)
  ip _ := (congrArg Registers.ip (c.regs_enter size level) :)
  restored := by
    intro e regs stacked
    have entered : e.regs = { c.regs with
        ip := e.regs.ip
        bp := c.regs.sp - 2
        sp := slot c.regs.sp ((level &&& 0x1F).toNat + 1) - size } := by
      refine regs.trans ?_
      change { (c.enter size level).regs with ip := e.regs.ip } = _
      rw [regs_enter]
    have first := (memory c.bus).frameWords_zero c.regs (level &&& 0x1F).toNat
    let back : Cpu β := { e with regs := { e.regs with sp := e.regs.bp } }
    have place : back.regs.sp = slot c.regs.sp (0 + 1) := by
      rw [slot_succ, slot_zero]
      change e.regs.bp = _
      rw [entered]
    have atFrame : Stacked c _ back := ⟨stacked.ss, stacked.memory, stacked.ram, stacked.room⟩
    have bp := atFrame.top place first
    have sp : back.regs.sp + 2 = c.regs.sp + (Instr.leave).released := by
      rw [place, slot_succ_add_two, slot_zero]
      exact (UInt16.add_zero _).symm
    change { back.regs with sp := back.regs.sp + 2, bp := back.top } = _
    rw [bp, sp]
    exact congrArg (fun r : Registers =>
      { r with sp := c.regs.sp + (Instr.leave).released, bp := c.regs.bp }) entered
  kept _ := rfl

/-- One word below the top of the stack and nothing else changed, as a single push leaves it. -/
theorem unwinding_push {value : UInt16} {e : Cpu β}
    (regs : e.regs = { (c.push value).regs with ip := e.regs.ip }) (stacked : Stacked c [value] e) :
    Unwinding c [value] e.regs.ip 1 e := by
  refine ⟨stacked, regs.trans ?_⟩
  rw [slot_succ, slot_zero]
  rfl

theorem undone_flags : Undone c .pushFlags .popFlags [c.regs.flags.toWord] where
  length := rfl
  memory := c.memory_push _
  ss := rfl
  ip _ := rfl
  restored := by
    intro e regs stacked
    have pushed := c.unwinding_push regs stacked
    have flags := stacked.top (k := 0) (by rw [pushed.regs]) rfl
    change { (e.release 2).regs with flags := .ofWord e.top } = _
    rw [flags, Flags.ofWord_toWord, pushed.release.popped]
    rfl
  kept _ := rfl

theorem undone_segment (seg : SegReg) : Undone c (.pushSeg seg) (.popSeg seg) [c.regs.seg seg] where
  length := rfl
  memory := c.memory_push _
  ss := rfl
  ip _ := rfl
  restored := by
    intro e regs stacked
    have pushed := c.unwinding_push regs stacked
    have value := stacked.top (k := 0) (by rw [pushed.regs]) rfl
    change (e.release 2).regs.setSeg seg e.top = _
    rw [value, pushed.release.popped]
    cases seg <;> rfl
  kept _ := rfl

omit [MemoryBus β] in
theorem exec_pop {j : Instr} {r : Fin 8} (pop : j = .popReg r ∨ j = .popRm (.reg r)) :
    ∃ clocks, (c.exec j).cpu = (c.popInto (.ofIndex r)).spend clocks := by
  rcases pop with rfl | rfl
  · exact ⟨_, rfl⟩
  · exact ⟨_, rfl⟩

theorem undone_register {i j : Instr} {r : Fin 8} (push : i = .pushReg r ∨ i = .pushRm (.reg r))
    (pop : j = .popReg r ∨ j = .popRm (.reg r)) (other : Reg16.ofIndex r ≠ .sp) :
    Undone c i j [c.regs.get (.ofIndex r)] := by
  obtain ⟨clocks, pushes⟩ := c.exec_push push other
  have plain : i.isCall = false := by rcases push with rfl | rfl <;> rfl
  have keeps : j.released = 0 := by rcases pop with rfl | rfl <;> rfl
  refine ⟨by rcases push with rfl | rfl <;> rfl, ?_, ?_, fun _ => ?_, ?_, ?_⟩
  · rw [pushes]
    exact c.memory_push _
  · rw [pushes]
    rfl
  · rw [pushes]
    rfl
  · intro e regs stacked
    obtain ⟨_, pops⟩ := e.exec_pop pop
    rw [pushes] at regs
    rw [pops, plain, keeps]
    exact ((c.unwinding_push regs stacked).popInto rfl other).popped
  · intro e
    obtain ⟨_, pops⟩ := e.exec_pop pop
    rw [pops]
    rfl

theorem undone_near {i : Instr} {target : UInt16} {clocks : Nat} (isCall : i.isCall = true)
    (words : i.stackWords = 1) (calls : (c.exec i).cpu = (c.call target).spend clocks)
    (arguments : Option UInt16) : Undone c i (.ret arguments) [c.regs.ip] := by
  refine ⟨words.symm, ?_, ?_, fun other => absurd (other.symm.trans isCall) Bool.false_ne_true, ?_, ?_⟩
  · rw [calls]
    exact c.memory_push _
  · rw [calls]
    rfl
  · intro e regs stacked
    rw [calls] at regs
    have pushed := c.unwinding_push regs stacked
    have ip := stacked.top (k := 0) (by rw [pushed.regs]) rfl
    have released : (e.exec (.ret arguments)).cpu.regs = { (e.release 2).regs with
        ip := e.top
        sp := (e.release 2).regs.sp + (Instr.ret arguments).released } := by
      cases arguments with
      | none => exact congrArg (fun sp => { e.regs with ip := e.top, sp }) (UInt16.add_zero _).symm
      | some bytes => rfl
    rw [released, ip, pushed.release.popped, isCall, UInt16.add_zero]
    rfl
  · intro e
    cases arguments <;> rfl

theorem undone_far {i : Instr} {segment offset : UInt16} {clocks : Nat} (isCall : i.isCall = true)
    (words : i.stackWords = 2) (calls : (c.exec i).cpu = (c.farCall segment offset).spend clocks)
    (arguments : Option UInt16) : Undone c i (.retFar arguments) [c.regs.cs, c.regs.ip] := by
  refine ⟨words.symm, ?_, ?_, fun other => absurd (other.symm.trans isCall) Bool.false_ne_true, ?_, ?_⟩
  · rw [calls]
    exact c.memory_foldl_push [c.regs.cs, c.regs.ip]
  · rw [calls]
    rfl
  · intro e regs stacked
    rw [calls] at regs
    have sp : e.regs.sp = slot c.regs.sp 2 := by
      rw [regs, slot_succ, slot_succ, slot_zero]
      rfl
    have ip := stacked.top (k := 1) sp rfl
    have above : Stacked c _ (e.release 2) :=
      ⟨stacked.ss, stacked.memory, stacked.ram, stacked.room⟩
    have cs := above.top (k := 0) (by rw [← slot_succ_add_two, ← sp]; rfl) rfl
    have released : (e.exec (.retFar arguments)).cpu.regs = { e.regs with
        ip := e.top
        cs := (e.release 2).top
        sp := e.regs.sp + 2 + 2 + (Instr.retFar arguments).released } := by
      cases arguments with
      | none =>
          exact congrArg (fun sp => { e.regs with ip := e.top, cs := (e.release 2).top, sp })
            (UInt16.add_zero _).symm
      | some bytes => rfl
    rw [released, ip, cs, sp, slot_succ_add_two, slot_succ_add_two, slot_zero, isCall, regs]
    rfl
  · intro e
    cases arguments <;> rfl

end Cpu

theorem Instr.Undoes.undone {i j : Instr} (pair : Undoes i j) (c : Cpu β) :
    ∃ words, Undone c i j words := by
  cases pair with
  | all => exact ⟨_, c.undone_all⟩
  | frame size level => exact ⟨_, c.undone_frame size level⟩
  | flags => exact ⟨_, c.undone_flags⟩
  | register push pop other => exact ⟨_, c.undone_register push pop other⟩
  | segment seg => exact ⟨_, c.undone_segment seg⟩
  | near displacement arguments => exact ⟨_, c.undone_near rfl rfl rfl arguments⟩
  | nearRm rm arguments => exact ⟨_, c.undone_near rfl rfl rfl arguments⟩
  | far segment offset arguments => exact ⟨_, c.undone_far rfl rfl rfl arguments⟩
  | farMem m arguments => exact ⟨_, c.undone_far rfl rfl rfl arguments⟩

/-- Two stack instructions that belong together, one right behind the other, change no register but
IP, and SP only by the arguments given up; a call leads back behind itself. In memory nothing
changes but the bytes pushed. -/
theorem stack_undone {i j : Instr} (pair : i.Undoes j) {c : Cpu β} (first : c.Performs i)
    (second : c.step.cpu.Performs j)
    (ram : ∀ byte ∈ pushedBytes c.regs.ss c.regs.sp i.stackWords, isRam byte) :
    c.step.cpu.step.cpu.regs = { c.regs with
        ip := if i.isCall then c.behind else c.behind + c.step.cpu.next.length.toUInt16
        sp := c.regs.sp + j.released } ∧
      Memory.AgreeOutside (pushedBytes c.regs.ss c.regs.sp i.stackWords) (memory c.bus)
        (memory c.step.cpu.step.cpu.bus) := by
  obtain ⟨words, undone⟩ := pair.undone c.ahead
  obtain ⟨goesOn, alsoGoesOn⟩ := pair.goesOn
  have regs := first.regs_step goesOn
  have pushed : memory c.step.cpu.bus =
      (memory c.bus).pushWords c.regs.ss c.regs.sp words := by
    rw [first.memory_step goesOn, undone.memory, memory_ahead]
    rfl
  have ss : c.step.cpu.regs.ss = c.regs.ss := by
    rw [regs, undone.ss]
    rfl
  have stacked : Stacked c.ahead words c.step.cpu.ahead := by
    refine ⟨ss, ?_, undone.length ▸ ram, ?_⟩
    · rw [memory_ahead, memory_ahead, pushed]
      rfl
    · rw [undone.length]
      exact i.stackWords_le
  have restored := undone.restored c.step.cpu.ahead (by rw [regs_ahead, regs]) stacked
  constructor
  · rw [second.regs_step alsoGoesOn, restored, regs_ahead, regs_ahead]
    cases isCall : i.isCall with
    | true => rfl
    | false =>
        have straight : c.step.cpu.regs.ip = c.behind := by
          rw [regs, undone.ip isCall]
          rfl
        have behind : c.step.cpu.behind = c.behind + c.step.cpu.next.length.toUInt16 := by
          rw [Cpu.behind, straight]
        exact congrArg (fun ip => { c.regs with ip, sp := c.regs.sp + j.released }) behind
  · rw [second.memory_step alsoGoesOn, undone.kept, memory_ahead, pushed, ← undone.length]
    exact Memory.agreeOutside_pushWords _ _ _ _

/-- At PUSHA and POPA, with an odd stack pointer that is about to wrap. -/
def shallow : Cpu FlatBus where
  regs := { ax := 1, cx := 2, dx := 3, bx := 4, sp := 7, bp := 5, si := 6, di := 8, ss := 0x1000,
            ip := 0x10 }
  bus := { memory := (Memory.zero.set 0x10 0x60).set 0x11 0x61 }
  config := .ofRatio .i80186 4 false

theorem next_shallow : shallow.next = ⟨.pushAll, 1⟩ := by
  have stands : shallow.syncTimer.Stands .pushAll := by decide
  exact Cpu.next_of_stands stands

theorem performs_shallow : shallow.Performs .pushAll := by
  have masked := congrArg (·.flags.interrupt) shallow.ahead.regs_pushAll
  exact .of_masked rfl (by rw [next_shallow]) ⟨rfl, nofun⟩ rfl masked

theorem behind_shallow : shallow.behind = 0x11 := by
  rw [Cpu.behind, next_shallow]
  decide

theorem ram_shallow : ∀ byte ∈ pushedBytes 0x1000 7 8, isRam byte :=
  List.all_iff_forall_prop.1 (by decide)

theorem regs_shallow : shallow.step.cpu.regs = { shallow.regs with ip := 0x11, sp := 0xFFF7 } := by
  rw [performs_shallow.regs_step ⟨rfl, nofun⟩]
  refine shallow.ahead.regs_pushAll.trans ?_
  rw [Cpu.regs_ahead, behind_shallow]
  decide

theorem next_step_shallow : shallow.step.cpu.next = ⟨.popAll, 1⟩ := by
  have regs := regs_shallow
  rw [performs_shallow.regs_step ⟨rfl, nofun⟩] at regs
  refine Cpu.next_of_stands (performs_shallow.stands_step ⟨rfl, nofun⟩ ?_)
  have kept := shallow.bus.memory.agreeOutside_pushWords 0x1000 7
    [1, 2, 3, 4, 7, 5, 6, 8] 0x11 (by decide)
  have pushed : memory (shallow.ahead.exec .pushAll).cpu.bus =
      shallow.bus.memory.pushWords 0x1000 7 [1, 2, 3, 4, 7, 5, 6, 8] := by
    refine shallow.ahead.undone_all.memory.trans ?_
    rw [Cpu.memory_ahead]
    rfl
  have code : Registers.codeAddress { shallow.regs with ip := 0x11, sp := 0xFFF7 } = 0x11 := by decide
  rw [regs, pushed, code, kept]
  decide

/-- All registers come back, and nothing but sixteen bytes around the end of the segment changes. -/
theorem stack_undone_shallow :
    shallow.Performs .pushAll ∧ shallow.step.cpu.Performs .popAll ∧
      (∀ byte ∈ pushedBytes 0x1000 7 8, isRam byte) ∧
      shallow.step.cpu.step.cpu.regs = { shallow.regs with ip := 0x12 } ∧
      Memory.AgreeOutside (pushedBytes 0x1000 7 8) (memory shallow.bus)
        (memory shallow.step.cpu.step.cpu.bus) := by
  have first := performs_shallow
  have second : shallow.step.cpu.Performs .popAll := by
    refine .of_masked (first.halted_step ⟨rfl, nofun⟩ nofun) (by rw [next_step_shallow])
      ⟨rfl, nofun⟩ (by rw [regs_shallow]; rfl) ?_
    have flags := shallow.step.cpu.ahead.flags_popAll
    rw [Cpu.regs_ahead, regs_shallow] at flags
    exact congrArg Flags.interrupt flags
  have undone := stack_undone .all first second ram_shallow
  rw [next_step_shallow, behind_shallow] at undone
  have regs : { shallow.regs with ip := 0x11 + (1 : Nat).toUInt16, sp := shallow.regs.sp + 0 } =
      { shallow.regs with ip := 0x12 } := by decide
  exact ⟨first, second, ram_shallow, undone.1.trans regs, undone.2⟩

end RealMode
