import RealMode.Proofs.Interrupt.Frame

/-!
One element of a string instruction: which bytes it reads and writes, and that it does the same in
two memories that differ nowhere it reads. Of the registers an element only moves the index
registers and sets the accumulator or the flags of a comparison.
-/

namespace RealMode

def StringOp.usesPort : StringOp → Bool
  | ins | outs => true
  | movs | cmps | scas | lods | stos => false

def operandBytes (w : Width) (address : UInt32) : List UInt32 :=
  match w with
  | .byte => [wrapAddress address]
  | .word => wordBytes address

theorem ne_succ (ip : UInt16) : ip ≠ ip + 1 := by
  have one : (1 : UInt16).toNat = 1 := rfl
  intro same
  have numbers := congrArg UInt16.toNat same
  rw [UInt16.toNat_add, one] at numbers
  omega

open MemoryBus (memory)

variable {β : Type}

namespace Cpu

def elementReads (c : Cpu β) (op : StringOp) (w : Width) : List UInt32 :=
  match op with
  | .movs | .lods | .outs => operandBytes w (c.dataAddress c.regs.si)
  | .cmps =>
    operandBytes w (c.dataAddress c.regs.si) ++ operandBytes w (c.extraAddress c.regs.di)
  | .scas => operandBytes w (c.extraAddress c.regs.di)
  | .stos | .ins => []

def elementWrites (c : Cpu β) (op : StringOp) (w : Width) : List UInt32 :=
  match op with
  | .movs | .stos | .ins => operandBytes w (c.extraAddress c.regs.di)
  | .cmps | .scas | .lods | .outs => []

theorem dataAddress_setIp (c : Cpu β) (ip offset : UInt16) :
    (c.setIp ip).dataAddress offset = c.dataAddress offset := by
  have seg : ∀ r, (c.setIp ip).regs.seg r = c.regs.seg r := fun r => by cases r <;> rfl
  exact congrArg (physical · offset) (seg _)

theorem elementReads_setIp (c : Cpu β) (ip : UInt16) (op : StringOp) (w : Width) :
    (c.setIp ip).elementReads op w = c.elementReads op w := by
  cases op <;> simp only [elementReads, dataAddress_setIp] <;> rfl

/-- Whether this was the last element of a repetition. -/
def repeatEnds (c : Cpu β) (op : StringOp) (mode : RepeatMode) : Prop :=
  c.regs.cx = 0 ∨ (op.compares ∧ mode.stopsOn c.regs.flags.zero)

variable [Bus β]

def countedElement (c : Cpu β) (op : StringOp) (w : Width) : Cpu β :=
  let c := c.stringElement op w
  { c with regs := { c.regs with cx := c.regs.cx - 1 } }

variable {c : Cpu β} {op : StringOp} {w : Width} {mode : RepeatMode}

theorem repeatElement_of_zero (none : c.regs.cx = 0) : c.repeatElement op w mode = c.endRepeat :=
  if_pos none

theorem repeatElement_of_ends (some : c.regs.cx ≠ 0)
    (ends : (c.countedElement op w).repeatEnds op mode) :
    c.repeatElement op w mode = (c.countedElement op w).endRepeat := by
  rw [repeatElement, if_neg some]
  exact if_pos ends

theorem repeatElement_of_not_ends (some : c.regs.cx ≠ 0)
    (goesOn : ¬ (c.countedElement op w).repeatEnds op mode) :
    c.repeatElement op w mode = (c.countedElement op w).rewind := by
  rw [repeatElement, if_neg some]
  exact if_neg goesOn

theorem string_of_rep (rep : c.prefixes.rep = some mode) :
    c.string op w = (c.repeatElement op w mode).spend (op.clocks true) := by
  rw [string, rep]

theorem string_of_not_rep (rep : c.prefixes.rep = none) :
    c.string op w = (c.stringElement op w).spend (op.clocks false) := by
  rw [string, rep]

/-- A repetition ends before an element, ends after one, or goes on after one. -/
theorem string_cases (c : Cpu β) (op : StringOp) (w : Width) (rep : c.prefixes.rep = some mode) :
    (c.regs.cx = 0 ∧ c.string op w = c.endRepeat.spend (op.clocks true)) ∨
      (c.regs.cx ≠ 0 ∧ c.string op w = (c.countedElement op w).endRepeat.spend (op.clocks true)) ∨
      (c.regs.cx ≠ 0 ∧ c.string op w = (c.countedElement op w).rewind.spend (op.clocks true)) := by
  rw [string_of_rep rep]
  by_cases none : c.regs.cx = 0
  · rw [repeatElement_of_zero none]
    exact .inl ⟨none, rfl⟩
  · by_cases ends : (c.countedElement op w).repeatEnds op mode
    · rw [repeatElement_of_ends none ends]
      exact .inr (.inl ⟨none, rfl⟩)
    · rw [repeatElement_of_not_ends none ends]
      exact .inr (.inr ⟨none, rfl⟩)

end Cpu

section

variable [Bus β] [MemoryBus β]

/-- Two processors that a program cannot tell apart unless it looks at the listed places. -/
structure Alike (places : List UInt32) (p c : Cpu β) : Prop where
  regs : c.regs = p.regs
  prefixes : c.prefixes = p.prefixes
  config : c.config = p.config
  memory : Memory.AgreeOutside places (memory p.bus) (memory c.bus)

namespace Alike

variable {places : List UInt32} {p c : Cpu β}

theorem refl (places : List UInt32) (c : Cpu β) : Alike places c c :=
  ⟨rfl, rfl, rfl, .refl _ _⟩

theorem withRegs (h : Alike places p c) (f : Registers → Registers) :
    Alike places { p with regs := f p.regs } { c with regs := f c.regs } :=
  ⟨congrArg f h.regs, h.prefixes, h.config, h.memory⟩

theorem withPrefixes (h : Alike places p c) (f : Prefixes → Prefixes) :
    Alike places { p with prefixes := f p.prefixes } { c with prefixes := f c.prefixes } :=
  ⟨h.regs, congrArg f h.prefixes, h.config, h.memory⟩

theorem spend (h : Alike places p c) (clocks : Nat) :
    Alike places (p.spend clocks) (c.spend clocks) :=
  ⟨h.regs, h.prefixes, h.config, h.memory⟩

theorem syncTimer (h : Alike places p c) : Alike places p.syncTimer c.syncTimer := by
  refine ⟨h.regs, h.prefixes, h.config, ?_⟩
  rw [Cpu.memory_syncTimer, Cpu.memory_syncTimer]
  exact h.memory

theorem retire (h : Alike places p c) : Alike places p.retire c.retire :=
  ⟨h.regs, congrArg Prefixes.retire h.prefixes, h.config, h.memory⟩

theorem read (h : Alike places p c) {w : Width} {address : UInt32}
    (outside : ∀ byte ∈ operandBytes w address, byte ∉ places) :
    Bus.read c.bus w address = Bus.read p.bus w address := by
  cases w with
  | byte =>
      change (Bus.readByte c.bus address).toUInt16 = (Bus.readByte p.bus address).toUInt16
      rw [MemoryBus.readByte, MemoryBus.readByte, h.memory address (outside _ List.mem_cons_self)]
  | word =>
      change Bus.readWord c.bus address = Bus.readWord p.bus address
      rw [MemoryBus.readWord, MemoryBus.readWord, h.memory.readWord outside]

theorem storeMem (h : Alike places p c) (w : Width) (address : UInt32) (value : UInt16) :
    Alike places (p.storeMem w address value) (c.storeMem w address value) := by
  refine ⟨h.regs, h.prefixes, h.config, ?_⟩
  cases w with
  | byte =>
      change Memory.AgreeOutside places (MemoryBus.memory (Bus.writeByte p.bus address _))
        (MemoryBus.memory (Bus.writeByte c.bus address _))
      rw [MemoryBus.writeByte, MemoryBus.writeByte]
      exact h.memory.store address _
  | word =>
      change Memory.AgreeOutside places (MemoryBus.memory (Bus.writeWord p.bus address _))
        (MemoryBus.memory (Bus.writeWord c.bus address _))
      rw [MemoryBus.writeWord, MemoryBus.writeWord]
      exact h.memory.writeWord address value

theorem advanceSi (h : Alike places p c) (w : Width) :
    Alike places (p.advanceSi w) (c.advanceSi w) := by
  refine ⟨?_, h.prefixes, h.config, h.memory⟩
  simp only [Cpu.advanceSi, Cpu.stringDelta, h.regs]

theorem advanceDi (h : Alike places p c) (w : Width) :
    Alike places (p.advanceDi w) (c.advanceDi w) := by
  refine ⟨?_, h.prefixes, h.config, h.memory⟩
  simp only [Cpu.advanceDi, Cpu.stringDelta, h.regs]

theorem dataAddress (h : Alike places p c) (offset : UInt16) :
    c.dataAddress offset = p.dataAddress offset := by
  rw [Cpu.dataAddress, Cpu.dataAddress, h.regs, h.prefixes]

theorem extraAddress (h : Alike places p c) (offset : UInt16) :
    c.extraAddress offset = p.extraAddress offset := by
  rw [Cpu.extraAddress, Cpu.extraAddress, h.regs]

theorem source (h : Alike places p c) {w : Width}
    (outside : ∀ byte ∈ operandBytes w (p.dataAddress p.regs.si), byte ∉ places) :
    c.source w = p.source w := by
  rw [Cpu.source, Cpu.source, h.dataAddress, h.regs]
  exact h.read outside

theorem destination (h : Alike places p c) {w : Width}
    (outside : ∀ byte ∈ operandBytes w (p.extraAddress p.regs.di), byte ∉ places) :
    c.destination w = p.destination w := by
  rw [Cpu.destination, Cpu.destination, h.extraAddress, h.regs]
  exact h.read outside

theorem setDestination (h : Alike places p c) (w : Width) (value : UInt16) :
    Alike places (p.setDestination w value) (c.setDestination w value) := by
  rw [Cpu.setDestination, Cpu.setDestination, h.extraAddress, h.regs]
  exact h.storeMem w _ value

theorem compare (h : Alike places p c) (w : Width) (a b : UInt16) :
    Alike places (p.compare w a b) (c.compare w a b) :=
  h.withRegs fun regs => { regs with flags := (regs.flags.sub w a b false).2 }

theorem stringElement (h : Alike places p c) {op : StringOp} {w : Width}
    (noPort : op.usesPort = false) (outside : ∀ byte ∈ p.elementReads op w, byte ∉ places) :
    Alike places (p.stringElement op w) (c.stringElement op w) := by
  cases op with
  | movs =>
      simp only [Cpu.stringElement, h.source outside]
      exact ((h.setDestination w _).advanceSi w).advanceDi w
  | cmps =>
      have source := h.source fun byte member => outside byte (List.mem_append_left _ member)
      have destination :=
        h.destination fun byte member => outside byte (List.mem_append_right _ member)
      simp only [Cpu.stringElement, source, destination]
      exact ((h.compare w _ _).advanceSi w).advanceDi w
  | scas =>
      simp only [Cpu.stringElement, h.destination outside, h.regs]
      exact (h.compare w _ _).advanceDi w
  | lods =>
      simp only [Cpu.stringElement, h.source outside]
      exact (h.withRegs fun regs => regs.write w accumulator (p.source w)).advanceSi w
  | stos =>
      simp only [Cpu.stringElement, h.regs]
      exact (h.setDestination w _).advanceDi w
  | ins | outs => exact absurd noPort Bool.true_eq_false.mp

theorem endRepeat (h : Alike places p c) : Alike places p.endRepeat c.endRepeat :=
  h.withPrefixes fun prefixes => { prefixes with rep := none }

theorem rewind (h : Alike places p c) : Alike places p.rewind c.rewind :=
  (h.withRegs fun regs => { regs with ip := regs.ip - 1 }).withPrefixes
    fun prefixes => { prefixes with keep := true }

/-- Nor does a repeated string instruction, whatever becomes of its counter. -/
theorem string (h : Alike places p c) {op : StringOp} {w : Width} {mode : RepeatMode}
    (noPort : op.usesPort = false) (rep : p.prefixes.rep = some mode)
    (outside : p.regs.cx ≠ 0 → ∀ byte ∈ p.elementReads op w, byte ∉ places) :
    Alike places (p.string op w) (c.string op w) := by
  have same : c.prefixes.rep = some mode := by rw [h.prefixes, rep]
  rw [Cpu.string_of_rep rep, Cpu.string_of_rep same]
  refine Alike.spend ?_ _
  by_cases none : p.regs.cx = 0
  · rw [Cpu.repeatElement_of_zero none, Cpu.repeatElement_of_zero (by rw [h.regs, none])]
    exact h.endRepeat
  · have some : c.regs.cx ≠ 0 := by rwa [h.regs]
    have counted : Alike places (p.countedElement op w) (c.countedElement op w) :=
      (h.stringElement noPort (outside none)).withRegs fun regs => { regs with cx := regs.cx - 1 }
    have stops : (c.countedElement op w).repeatEnds op mode ↔
        (p.countedElement op w).repeatEnds op mode := by
      rw [Cpu.repeatEnds, Cpu.repeatEnds, counted.regs]
    by_cases ends : (p.countedElement op w).repeatEnds op mode
    · rw [Cpu.repeatElement_of_ends none ends, Cpu.repeatElement_of_ends some (stops.2 ends)]
      exact counted.endRepeat
    · rw [Cpu.repeatElement_of_not_ends none ends,
        Cpu.repeatElement_of_not_ends some (mt stops.1 ends)]
      exact counted.rewind

end Alike

end

namespace Cpu

/-- The program has the stack, the code segment and the masks that it had. -/
structure InPlace (c d : Cpu β) : Prop where
  ss : d.regs.ss = c.regs.ss
  sp : d.regs.sp = c.regs.sp
  cs : d.regs.cs = c.regs.cs
  interrupt : d.regs.flags.interrupt = c.regs.flags.interrupt
  trap : d.regs.flags.trap = c.regs.flags.trap
  config : d.config = c.config
  irqFrames : d.irqFrames = c.irqFrames
  halted : d.halted = c.halted

theorem InPlace.trans {c d e : Cpu β} (h : InPlace c d) (g : InPlace d e) : InPlace c e :=
  ⟨g.ss.trans h.ss, g.sp.trans h.sp, g.cs.trans h.cs, g.interrupt.trans h.interrupt,
    g.trap.trans h.trap, g.config.trans h.config, g.irqFrames.trans h.irqFrames,
    g.halted.trans h.halted⟩

/-- Where a repeated string instruction has come: behind the opcode if it is done, or back at the
opcode with its prefix still in force. -/
inductive RepeatCourse (c d : Cpu β) (mode : RepeatMode) : Prop
  | done (ip : d.regs.ip = c.regs.ip)
  | again (ip : d.regs.ip = c.regs.ip - 1) (rep : d.prefixes.rep = some mode)
      (keep : d.prefixes.keep = true) (counted : c.regs.cx ≠ 0) (cx : d.regs.cx = c.regs.cx - 1)

theorem keep_retire (p : Prefixes) : p.retire.keep = false := by
  rw [Prefixes.retire]
  split <;> rfl

variable [Bus β]

theorem inPlace_stringElement (c : Cpu β) (op : StringOp) (w : Width) :
    InPlace c (c.stringElement op w) := by
  cases op <;> cases w <;> exact ⟨rfl, rfl, rfl, rfl, rfl, rfl, rfl, rfl⟩

theorem cx_stringElement (c : Cpu β) (op : StringOp) (w : Width) :
    (c.stringElement op w).regs.cx = c.regs.cx := by
  cases op <;> cases w <;> rfl

theorem ip_stringElement (c : Cpu β) (op : StringOp) (w : Width) :
    (c.stringElement op w).regs.ip = c.regs.ip := by
  cases op <;> cases w <;> rfl

theorem prefixes_stringElement (c : Cpu β) (op : StringOp) (w : Width) :
    (c.stringElement op w).prefixes = c.prefixes := by
  cases op <;> cases w <;> rfl

theorem inPlace_countedElement (c : Cpu β) (op : StringOp) (w : Width) :
    InPlace c (c.countedElement op w) := by
  have element := c.inPlace_stringElement op w
  exact ⟨element.ss, element.sp, element.cs, element.interrupt, element.trap, element.config,
    element.irqFrames, element.halted⟩

variable {c : Cpu β} {op : StringOp} {w : Width} {mode : RepeatMode}

theorem string_inPlace (c : Cpu β) (op : StringOp) (w : Width) (rep : c.prefixes.rep = some mode) :
    InPlace c (c.string op w) := by
  have counted := c.inPlace_countedElement op w
  rcases c.string_cases op w rep with ⟨_, same⟩ | ⟨_, same⟩ | ⟨_, same⟩
  · rw [same]
    exact ⟨rfl, rfl, rfl, rfl, rfl, rfl, rfl, rfl⟩
  · rw [same]
    exact ⟨counted.ss, counted.sp, counted.cs, counted.interrupt, counted.trap, counted.config,
      counted.irqFrames, counted.halted⟩
  · rw [same]
    exact ⟨counted.ss, counted.sp, counted.cs, counted.interrupt, counted.trap, counted.config,
      counted.irqFrames, counted.halted⟩

theorem string_course (c : Cpu β) (op : StringOp) (w : Width) (rep : c.prefixes.rep = some mode) :
    RepeatCourse c (c.string op w) mode := by
  rcases c.string_cases op w rep with ⟨_, same⟩ | ⟨_, same⟩ | ⟨some, same⟩
  · rw [same]
    exact .done rfl
  · rw [same]
    exact .done (c.ip_stringElement op w)
  · rw [same]
    refine .again ?_ ?_ rfl some ?_
    · exact congrArg (· - 1) (c.ip_stringElement op w)
    · exact (congrArg Prefixes.rep (c.prefixes_stringElement op w)).trans rep
    · exact congrArg (· - 1) (c.cx_stringElement op w)

variable [MemoryBus β]

theorem get_storeMem (c : Cpu β) {w : Width} {address byte : UInt32} (value : UInt16)
    (outside : wrapAddress byte ∉ operandBytes w address) :
    (memory (c.storeMem w address value).bus).get byte = (memory c.bus).get byte := by
  cases w with
  | byte =>
      change (memory (Bus.writeByte c.bus address _)).get byte = _
      rw [MemoryBus.writeByte, Memory.get_store, if_neg]
      exact fun hit => outside (List.mem_singleton.2 hit.1)
  | word =>
      change (memory (Bus.writeWord c.bus address _)).get byte = _
      rw [MemoryBus.writeWord]
      exact Memory.get_writeWord_of_not_mem _ _ outside

theorem get_stringElement {byte : UInt32} (outside : wrapAddress byte ∉ c.elementWrites op w) :
    (memory (c.stringElement op w).bus).get byte = (memory c.bus).get byte := by
  cases op with
  | movs | stos => exact c.get_storeMem _ outside
  | cmps | scas | lods => rfl
  | ins =>
      refine ({ c with bus := (Bus.input c.bus w c.regs.dx).2 }.get_storeMem _ outside).trans ?_
      exact congrArg (Memory.get · byte) (MemoryBus.input c.bus w _)
  | outs => exact congrArg (Memory.get · byte) (MemoryBus.output c.bus w _ _)

theorem get_string {byte : UInt32} (rep : c.prefixes.rep = some mode)
    (outside : c.regs.cx ≠ 0 → wrapAddress byte ∉ c.elementWrites op w) :
    (memory (c.string op w).bus).get byte = (memory c.bus).get byte := by
  rcases c.string_cases op w rep with ⟨_, same⟩ | ⟨some, same⟩ | ⟨some, same⟩
  · rw [same]
    rfl
  · rw [same]
    exact get_stringElement (outside some)
  · rw [same]
    exact get_stringElement (outside some)

end Cpu
end RealMode
