import RealMode.Proofs.Cpu.Reachable
import RealMode.Width.Lemmas

/-!
Repeated comparisons. Each step compares one pair, and the repetition is over with the first pair
that ends it, or with CX. Nothing is written on the way, so the pairs are those that are there at
the start, and how many of them are compared is known from the start.
-/

namespace RealMode

/-- Where a repetition ends: at the first pair that differs, or at the first that does not. -/
def RepeatMode.endsAt : RepeatMode → UInt16 × UInt16 → Bool
  | whileZero, pair => pair.1 != pair.2
  | whileNotZero, pair => pair.1 == pair.2

theorem RepeatMode.stopsOn_equal (mode : RepeatMode) (pair : UInt16 × UInt16) :
    mode.stopsOn (pair.1 == pair.2) = mode.endsAt pair := by
  cases mode with
  | whileZero => rfl
  | whileNotZero => rfl

namespace Flags

/-- The arithmetic flags are those of the difference alone, whatever they were. -/
def compared (f : Flags) (w : Width) (pair : UInt16 × UInt16) : Flags :=
  { (({} : Flags).sub w pair.1 pair.2 false).2 with
    trap := f.trap
    interrupt := f.interrupt
    direction := f.direction }

theorem zero_compared (f : Flags) {w : Width} {pair : UInt16 × UInt16}
    (left : pair.1.toNat < 2 ^ w.bits) (right : pair.2.toNat < 2 ^ w.bits) :
    (f.compared w pair).zero = (pair.1 == pair.2) := by
  obtain ⟨a, b⟩ := pair
  have zero : (f.compared w (a, b)).zero =
      (((a.toUInt32 &&& w.mask) - (b.toUInt32 &&& w.mask) - 0) &&& w.mask == 0) := rfl
  rw [zero, Bool.eq_iff_iff, beq_iff_eq, beq_iff_eq, ← UInt32.toNat_inj, ← UInt16.toNat_inj,
    w.toNat_mask, UInt32.sub_zero, UInt32.toNat_sub, w.toNat_and_mask, w.toNat_and_mask,
    UInt32.toNat_zero, Nat.mod_eq_of_lt left, Nat.mod_eq_of_lt right]
  cases w with
  | byte => simp only [Width.bits] at *; omega
  | word => simp only [Width.bits] at *; omega

end Flags

theorem Registers.read_lt (r : Registers) (w : Width) (i : Fin 8) :
    (r.read w i).toNat < 2 ^ w.bits := by
  cases w with
  | byte => exact Width.toNat_toUInt16_lt (r.get8 (.ofIndex i))
  | word => exact (r.get (.ofIndex i)).toNat_lt

theorem Bus.read_lt {β : Type} [Bus β] (b : β) (w : Width) (address : UInt32) :
    (Bus.read b w address).toNat < 2 ^ w.bits := by
  cases w with
  | byte => exact Width.toNat_toUInt16_lt (Bus.readByte b address)
  | word => exact (Bus.readWord b address).toNat_lt

open MemoryBus (memory)

variable {β : Type}

namespace Cpu

/-- The offset that is so many elements behind another. -/
def elementOffset (c : Cpu β) (w : Width) (offset : UInt16) (i : Nat) : UInt16 :=
  offset + i.toUInt16 * c.stringDelta w

theorem elementOffset_zero (c : Cpu β) (w : Width) (offset : UInt16) :
    c.elementOffset w offset 0 = offset := by
  have none : (0 : Nat).toUInt16 = 0 := rfl
  rw [elementOffset, none, UInt16.zero_mul, UInt16.add_zero]

theorem elementOffset_succ (c : Cpu β) (w : Width) (offset : UInt16) (k : Nat) :
    c.elementOffset w offset (k + 1) = c.elementOffset w offset k + c.stringDelta w := by
  have next : (k + 1).toUInt16 = k.toUInt16 + 1 := UInt16.ofNat_add k 1
  rw [elementOffset, elementOffset, next, UInt16.add_mul, UInt16.one_mul, UInt16.add_assoc]

variable [Bus β]

/-- What the comparison that comes after `i` others subtracts from what. -/
def elementPair (c : Cpu β) (op : StringOp) (w : Width) (i : Nat) : UInt16 × UInt16 :=
  let destination := Bus.read c.bus w (c.extraAddress (c.elementOffset w c.regs.di i))
  match op with
  | .scas => (c.regs.read w accumulator, destination)
  | _ => (Bus.read c.bus w (c.dataAddress (c.elementOffset w c.regs.si i)), destination)

/-- How many pairs are compared. -/
def comparisons (c : Cpu β) (op : StringOp) (w : Width) (mode : RepeatMode) : Nat :=
  match (List.range c.regs.cx.toNat).find? fun i => mode.endsAt (c.elementPair op w i) with
  | some i => i + 1
  | none => c.regs.cx.toNat

def comparedFlags (c : Cpu β) (op : StringOp) (w : Width) : Nat → Flags
  | 0 => c.regs.flags
  | k + 1 => c.regs.flags.compared w (c.elementPair op w k)

/-- The registers after `k` comparisons. The flags are those of the last one. -/
def comparedRegs (c : Cpu β) (op : StringOp) (w : Width) (k : Nat) : Registers :=
  { c.regs with
    cx := c.regs.cx - k.toUInt16
    si := if op = .cmps then c.elementOffset w c.regs.si k else c.regs.si
    di := c.elementOffset w c.regs.di k
    flags := c.comparedFlags op w k }

/-- The first pair that ends a repetition, or the last that CX allows. -/
structure FirstStop (c : Cpu β) (op : StringOp) (w : Width) (mode : RepeatMode) (k : Nat) :
    Prop where
  inside : k ≤ c.regs.cx.toNat
  before : ∀ i, i + 1 < k → mode.endsAt (c.elementPair op w i) = false
  stops : k = c.regs.cx.toNat ∨ ∃ i, k = i + 1 ∧ mode.endsAt (c.elementPair op w i) = true

variable {c start : Cpu β} {op : StringOp} {w : Width} {mode : RepeatMode} {i k : Nat}

theorem firstStop_comparisons (c : Cpu β) (op : StringOp) (w : Width) (mode : RepeatMode) :
    c.FirstStop op w mode (c.comparisons op w mode) := by
  rw [comparisons]
  split
  next i first =>
    obtain ⟨ends, member, earlier⟩ := List.find?_range_eq_some.1 first
    have inside := List.mem_range.1 member
    refine ⟨inside, fun j before => ?_, .inr ⟨i, rfl, ends⟩⟩
    simpa using earlier j (Nat.lt_of_succ_lt_succ before)
  next none =>
    have goesOn := List.find?_range_eq_none.1 none
    refine ⟨Nat.le_refl _, fun j before => ?_, .inl rfl⟩
    simpa using goesOn j (Nat.lt_of_succ_lt before)

theorem elementPair_lt (c : Cpu β) (op : StringOp) (w : Width) (i : Nat) :
    (c.elementPair op w i).1.toNat < 2 ^ w.bits ∧ (c.elementPair op w i).2.toNat < 2 ^ w.bits := by
  cases op with
  | scas => exact ⟨c.regs.read_lt w accumulator, Bus.read_lt c.bus w _⟩
  | _ => exact ⟨Bus.read_lt c.bus w _, Bus.read_lt c.bus w _⟩

/-- The zero flag of a comparison tells whether the repetition ends with it. -/
theorem stopsOn_comparedFlags (c : Cpu β) (op : StringOp) (w : Width) (mode : RepeatMode)
    (k : Nat) :
    mode.stopsOn (c.comparedFlags op w (k + 1)).zero = mode.endsAt (c.elementPair op w k) := by
  obtain ⟨left, right⟩ := c.elementPair_lt op w k
  rw [comparedFlags, Flags.zero_compared _ left right, mode.stopsOn_equal]

theorem countedElement_of_compares (c : Cpu β) (w : Width) (compares : op.compares = true) :
    c.countedElement op w = { c with regs := c.comparedRegs op w 1 } := by
  have one : (1 : Nat).toUInt16 = 1 := rfl
  cases op with
  | cmps =>
      simp only [comparedRegs, comparedFlags, elementPair, elementOffset_succ, elementOffset_zero,
        if_pos]
      rfl
  | scas =>
      simp only [comparedRegs, comparedFlags, elementPair, elementOffset_succ, elementOffset_zero]
      rfl
  | _ => cases compares

end Cpu

/-- About to do a repeated comparison. -/
structure AtComparison [Bus β] [MemoryBus β] (c : Cpu β) (op : StringOp) (w : Width)
    (mode : RepeatMode) : Prop where
  stands : c.Stands (.string op w)
  compares : op.compares = true
  rep : c.prefixes.rep = some mode
  running : c.halted = false
  trap : c.regs.flags.trap = false

/-- So many pairs have been compared. A program has seen nothing else change but the place of its
instruction and the prefixes. -/
structure Compared [Bus β] [MemoryBus β] (start : Cpu β) (op : StringOp) (w : Width) (k : Nat)
    (ip : UInt16) (prefixes : Prefixes) (c : Cpu β) : Prop where
  memory : memory c.bus = memory start.bus
  regs : c.regs = { start.comparedRegs op w k with ip }
  prefixes : c.prefixes = prefixes
  config : c.config = start.config
  irqFrames : c.irqFrames = start.irqFrames
  halted : c.halted = start.halted
  loopBounds : c.loopBounds = start.loopBounds

section

variable [Bus β] [MemoryBus β] {start c : Cpu β} {op : StringOp} {w : Width} {mode : RepeatMode}
  {k : Nat} {ip : UInt16} {prefixes : Prefixes}

namespace Compared

theorem refl (start : Cpu β) (op : StringOp) (w : Width) :
    Compared start op w 0 start.regs.ip start.prefixes start where
  memory := rfl
  regs := by
    have none : start.regs.cx - (0 : Nat).toUInt16 = start.regs.cx := UInt16.sub_zero _
    simp only [Cpu.comparedRegs, Cpu.comparedFlags, Cpu.elementOffset_zero, none, ite_self]
  prefixes := rfl
  config := rfl
  irqFrames := rfl
  halted := rfl
  loopBounds := rfl

/-- A comparison sets none of the control flags. -/
theorem control (h : Compared start op w k ip prefixes c) :
    c.regs.flags.trap = start.regs.flags.trap ∧
      c.regs.flags.interrupt = start.regs.flags.interrupt ∧
      c.regs.flags.direction = start.regs.flags.direction := by
  rw [h.regs]
  cases k with
  | zero => exact ⟨rfl, rfl, rfl⟩
  | succ k => exact ⟨rfl, rfl, rfl⟩

theorem stringDelta (h : Compared start op w k ip prefixes c) (w : Width) :
    c.stringDelta w = start.stringDelta w := by
  rw [Cpu.stringDelta, Cpu.stringDelta, h.control.2.2]

theorem elementPair (h : Compared start op w k ip start.prefixes c)
    (compares : op.compares = true) : c.elementPair op w 0 = start.elementPair op w k := by
  have read : ∀ address, Bus.read c.bus w address = Bus.read start.bus w address :=
    MemoryBus.read_congr h.memory w
  have seg : ∀ r, c.regs.seg r = start.regs.seg r := by
    intro r
    rw [h.regs]
    cases r <;> rfl
  have es : c.regs.es = start.regs.es := seg .es
  have di : c.regs.di = start.elementOffset w start.regs.di k := by rw [h.regs]; rfl
  cases op with
  | cmps =>
      have si : c.regs.si = start.elementOffset w start.regs.si k := by rw [h.regs]; rfl
      simp only [Cpu.elementPair, Cpu.elementOffset_zero, Cpu.dataAddress, Cpu.extraAddress, read,
        seg, es, si, di, h.prefixes]
  | scas =>
      have ax : c.regs.read w accumulator = start.regs.read w accumulator := by
        rw [h.regs]
        cases w <;> rfl
      simp only [Cpu.elementPair, Cpu.elementOffset_zero, Cpu.extraAddress, read, es, di, ax]
  | _ => cases compares

theorem comparedRegs (h : Compared start op w k ip start.prefixes c)
    (compares : op.compares = true) :
    c.comparedRegs op w 1 = { start.comparedRegs op w (k + 1) with ip } := by
  have delta := h.stringDelta w
  have cx : c.regs.cx - 1 = start.regs.cx - (k + 1).toUInt16 := by
    rw [h.regs]
    refine sub_sub_eq start.regs.cx ?_
    rw [UInt16.add_comm]
    exact (UInt16.ofNat_add k 1).symm
  have si : (if op = .cmps then c.elementOffset w c.regs.si 1 else c.regs.si) =
      if op = .cmps then start.elementOffset w start.regs.si (k + 1) else start.regs.si := by
    have here : c.regs.si =
        if op = .cmps then start.elementOffset w start.regs.si k else start.regs.si := by
      rw [h.regs]
      rfl
    rw [Cpu.elementOffset_succ, Cpu.elementOffset_succ, Cpu.elementOffset_zero, delta, here]
    split <;> rfl
  have di : c.elementOffset w c.regs.di 1 = start.elementOffset w start.regs.di (k + 1) := by
    rw [Cpu.elementOffset_succ, Cpu.elementOffset_succ, Cpu.elementOffset_zero, delta, h.regs]
    rfl
  have flags : c.comparedFlags op w 1 = start.comparedFlags op w (k + 1) := by
    rw [Cpu.comparedFlags, Cpu.comparedFlags, h.elementPair compares, h.regs]
    cases k with
    | zero => rfl
    | succ k => rfl
  have one : (1 : Nat).toUInt16 = 1 := rfl
  rw [Cpu.comparedRegs, Cpu.comparedRegs, one, cx, si, di, flags, h.regs]
  rfl

theorem countedElement (h : Compared start op w k ip start.prefixes c)
    (compares : op.compares = true) :
    Compared start op w (k + 1) ip start.prefixes (c.countedElement op w) := by
  rw [Cpu.countedElement_of_compares c w compares]
  exact ⟨h.memory, h.comparedRegs compares, h.prefixes, h.config, h.irqFrames, h.halted,
    h.loopBounds⟩

theorem withBus (h : Compared start op w k ip prefixes c) {bus : β}
    (same : MemoryBus.memory bus = MemoryBus.memory c.bus) :
    Compared start op w k ip prefixes { c with bus } :=
  ⟨same.trans h.memory, h.regs, h.prefixes, h.config, h.irqFrames, h.halted, h.loopBounds⟩

/-- The opcode is consumed once again. -/
theorem fetched (h : Compared start op w k ip prefixes c) :
    Compared start op w k (ip + 1) prefixes (c.syncTimer.setIp (c.regs.ip + 1)) where
  memory := c.memory_syncTimer.trans h.memory
  regs := by
    change { c.regs with ip := c.regs.ip + 1 } = _
    rw [h.regs]
  prefixes := h.prefixes
  config := h.config
  irqFrames := h.irqFrames
  halted := h.halted
  loopBounds := h.loopBounds

theorem cx (h : Compared start op w k ip prefixes c) (inside : k ≤ start.regs.cx.toNat) :
    c.regs.cx.toNat = start.regs.cx.toNat - k := by
  have bound := start.regs.cx.toNat_lt
  have small : k.toUInt16.toNat = k := UInt16.toNat_ofNat_of_lt (by simp only [UInt16.size]; omega)
  have counted : c.regs.cx = start.regs.cx - k.toUInt16 := by
    rw [h.regs]
    rfl
  rw [counted, UInt16.toNat_sub, small]
  omega

theorem stands (h : Compared start op w k start.regs.ip prefixes c)
    (at_ : AtComparison start op w mode) : c.syncTimer.Stands (.string op w) := by
  have place : c.syncTimer.regs.codeAddress = start.regs.codeAddress := by
    change c.regs.codeAddress = _
    rw [h.regs]
    rfl
  have memory := c.memory_syncTimer.trans h.memory
  have config : c.syncTimer.config = start.config := h.config
  rw [Cpu.Stands, place, memory, config]
  exact at_.stands

theorem stopsOn_zero (h : Compared start op w (k + 1) ip prefixes c) (mode : RepeatMode) :
    mode.stopsOn c.regs.flags.zero = mode.endsAt (start.elementPair op w k) := by
  rw [h.regs]
  exact start.stopsOn_comparedFlags op w mode k

/-- The comparison that has just been made ends the repetition exactly if it is the last. -/
theorem repeatEnds_iff {total : Nat} (h : Compared start op w (k + 1) ip prefixes c)
    (compares : op.compares = true) (first : start.FirstStop op w mode total)
    (inside : k < total) : c.repeatEnds op mode ↔ k + 1 = total := by
  have zero : (0 : UInt16).toNat = 0 := rfl
  have all := first.inside
  have left := h.cx (by omega)
  rw [Cpu.repeatEnds, h.stopsOn_zero mode, ← UInt16.toNat_inj, left, zero]
  constructor
  · rintro (last | ⟨-, ends⟩)
    · omega
    · rcases Nat.lt_or_ge (k + 1) total with more | last
      · rw [first.before k more] at ends
        cases ends
      · omega
  · rintro rfl
    rcases first.stops with last | ⟨i, same, ends⟩
    · exact .inl (by omega)
    · obtain rfl : k = i := Nat.succ.inj same
      exact .inr ⟨compares, ends⟩

theorem endRepeat (h : Compared start op w k ip start.prefixes c)
    (keep : start.prefixes.keep = false) (clocks : Nat) :
    Compared start op w k ip {} (c.endRepeat.spend clocks).retire where
  memory := h.memory
  regs := h.regs
  prefixes := by
    change Prefixes.retire { c.prefixes with rep := none } = {}
    exact Prefixes.retire_of_not_keep (by rw [h.prefixes, keep])
  config := h.config
  irqFrames := h.irqFrames
  halted := h.halted
  loopBounds := h.loopBounds

theorem rewind (h : Compared start op w k (ip + 1) start.prefixes c)
    (keep : start.prefixes.keep = false) (clocks : Nat) :
    Compared start op w k ip start.prefixes (c.rewind.spend clocks).retire where
  memory := h.memory
  regs := by
    change { c.regs with ip := c.regs.ip - 1 } = _
    rw [h.regs, UInt16.add_sub_cancel]
  prefixes := by
    change Prefixes.retire { c.prefixes with keep := true } = start.prefixes
    rw [h.prefixes, Prefixes.retire, if_pos rfl, ← keep]
  config := h.config
  irqFrames := h.irqFrames
  halted := h.halted
  loopBounds := h.loopBounds

/-- With the opcode consumed, the instruction makes the next comparison and is over with the last.
With CX at zero it is over at once. -/
theorem string {total : Nat} (h : Compared start op w k (start.regs.ip + 1) start.prefixes c)
    (at_ : AtComparison start op w mode) (keep : start.prefixes.keep = false)
    (first : start.FirstStop op w mode total) (before : k < max total 1) :
    (total ≤ k + 1 →
      Compared start op w total (start.regs.ip + 1) {} (c.string op w).retire) ∧
    (k + 1 < total →
      Compared start op w (k + 1) start.regs.ip start.prefixes (c.string op w).retire) := by
  have rep : c.prefixes.rep = some mode := by rw [h.prefixes, at_.rep]
  have all := first.inside
  have zero : c.regs.cx = 0 ↔ total = 0 := by
    have none : (0 : UInt16).toNat = 0 := rfl
    rw [← UInt16.toNat_inj, h.cx (by omega), none]
    rcases first.stops with last | ⟨i, same, -⟩
    · omega
    · omega
  have counted := h.countedElement at_.compares
  rw [Cpu.string_of_rep rep]
  refine ⟨fun last => ?_, fun more => ?_⟩
  · rcases Nat.eq_zero_or_pos total with none | some
    · obtain rfl : k = total := by omega
      rw [Cpu.repeatElement_of_zero (zero.2 none)]
      exact h.endRepeat keep _
    · obtain rfl : k + 1 = total := by omega
      have ends := (counted.repeatEnds_iff at_.compares first (Nat.lt_succ_self k)).2 rfl
      rw [Cpu.repeatElement_of_ends (mt zero.1 (Nat.succ_ne_zero k)) ends]
      exact counted.endRepeat keep _
  · have goesOn : ¬ (c.countedElement op w).repeatEnds op mode := by
      rw [counted.repeatEnds_iff at_.compares first (Nat.lt_of_succ_lt more)]
      exact Nat.ne_of_lt more
    rw [Cpu.repeatElement_of_not_ends (mt zero.1 (Nat.ne_zero_of_lt more)) goesOn]
    exact counted.rewind keep _

theorem step_string (h : Compared start op w k start.regs.ip start.prefixes c)
    (at_ : AtComparison start op w mode) :
    c.stepEvents =
        ((c.syncTimer.setIp (c.regs.ip + 1)).string op w).retire.betweenEvents false ∧
      c.step =
        ((c.syncTimer.setIp (c.regs.ip + 1)).string op w).retire.betweenInstructions false := by
  have running : c.halted = false := h.halted.trans at_.running
  have trap : c.regs.flags.trap = false := h.control.1.trans at_.trap
  have stands := h.stands at_
  rw [Cpu.stepEvents_of_stands running stands rfl, Cpu.step_of_stands running stands rfl, trap]
  exact ⟨rfl, rfl⟩

/-- A step that is not interrupted makes one comparison. It can break off only in refusing an
interrupt. -/
theorem step {total : Nat} (h : Compared start op w k start.regs.ip start.prefixes c)
    (at_ : AtComparison start op w mode) (keep : start.prefixes.keep = false)
    (first : start.FirstStop op w mode total) (before : k < max total 1)
    (uninterrupted : ∀ e ∈ c.stepEvents, ∀ line, e.kind ≠ .entry (some line)) :
    (total ≤ k + 1 → Compared start op w total (start.regs.ip + 1) {} c.step.cpu) ∧
      (k + 1 < total →
        Compared start op w (k + 1) start.regs.ip start.prefixes c.step.cpu) ∧
      (c.step.missing.isSome = true → ∃ e ∈ c.stepEvents, ∃ line, e.kind = .refusal line) := by
  obtain ⟨events, step⟩ := h.step_string at_
  rw [events] at uninterrupted ⊢
  rw [step]
  obtain ⟨bus, asked, after, refused⟩ := (Cpu.boundary _ false).unserved uninterrupted
  obtain ⟨last, more⟩ := h.fetched.string at_ keep first before
  rw [after]
  exact ⟨fun ended => (last ended).withBus asked.memory,
    fun goesOn => (more goesOn).withBus asked.memory, refused⟩

theorem stepEvents_of_off {total : Nat} (h : Compared start op w k start.regs.ip start.prefixes c)
    (at_ : AtComparison start op w mode) (keep : start.prefixes.keep = false)
    (first : start.FirstStop op w mode total) (before : k < max total 1)
    (off : start.regs.flags.interrupt = false) : c.stepEvents = [] := by
  obtain ⟨last, more⟩ := h.fetched.string at_ keep first before
  have masked : ((c.syncTimer.setIp (c.regs.ip + 1)).string op w).retire.regs.flags.interrupt =
      false := by
    rcases Nat.lt_or_ge (k + 1) total with goesOn | ended
    · exact (more goesOn).control.2.1.trans off
    · exact (last ended).control.2.1.trans off
  rw [(h.step_string at_).1, Cpu.betweenEvents_of_off masked]
  rfl

end Compared

variable {total : Nat}

theorem compared_next (at_ : AtComparison start op w mode) (keep : start.prefixes.keep = false)
    (first : start.FirstStop op w mode total) (k : Nat) (c : Cpu β) (more : k + 1 < max total 1)
    (h : Compared start op w k start.regs.ip start.prefixes c)
    (uninterrupted : ∀ e ∈ c.stepEvents, ∀ line, e.kind ≠ .entry (some line)) :
    Compared start op w (k + 1) start.regs.ip start.prefixes c.step.cpu :=
  (h.step at_ keep first (Nat.lt_of_succ_lt more) uninterrupted).2.1 (by omega)

theorem compared_steps (at_ : AtComparison start op w mode) (keep : start.prefixes.keep = false)
    (first : start.FirstStop op w mode total) (before : k < max total 1)
    (uninterrupted : start.Uninterrupted k) :
    Compared start op w k start.regs.ip start.prefixes (start.steps k) :=
  uninterrupted.invariant (.refl start op w) (compared_next at_ keep first) before

/-- With the interrupt flag clear there is nothing to accept. -/
theorem uninterrupted_of_off (at_ : AtComparison start op w mode)
    (keep : start.prefixes.keep = false) (first : start.FirstStop op w mode total)
    (off : start.regs.flags.interrupt = false) : start.Uninterrupted (max total 1) :=
  .of_silent (.refl start op w) (compared_next at_ keep first) fun _ _ before underway =>
    underway.stepEvents_of_off at_ keep first before off

theorem completed_steps (at_ : AtComparison start op w mode) (keep : start.prefixes.keep = false)
    (first : start.FirstStop op w mode total)
    (uninterrupted : start.Uninterrupted (max total 1)) :
    Compared start op w total (start.regs.ip + 1) {} (start.steps (max total 1)) := by
  obtain ⟨k, last⟩ : ∃ k, max total 1 = k + 1 := ⟨max total 1 - 1, by omega⟩
  have before : k < max total 1 := by omega
  have earlier := compared_steps at_ keep first before (uninterrupted.mono (Nat.le_of_lt before))
  have done := earlier.step at_ keep first before (uninterrupted k before)
  rw [last]
  exact done.1 (by omega)

/-- In the end the zero flag tells whether there was a pair to stop at. -/
theorem Compared.found_iff (first : start.FirstStop op w mode total)
    (h : Compared start op w total ip prefixes c) (some : 0 < start.regs.cx.toNat) :
    mode.stopsOn c.regs.flags.zero = true ↔
      ∃ i < start.regs.cx.toNat, mode.endsAt (start.elementPair op w i) = true := by
  have all := first.inside
  cases total with
  | zero =>
      rcases first.stops with last | ⟨i, same, -⟩
      · omega
      · omega
  | succ k =>
      rw [h.stopsOn_zero mode]
      refine ⟨fun ends => ⟨k, all, ends⟩, fun ⟨i, inside, ends⟩ => ?_⟩
      rcases first.stops with last | ⟨j, same, found⟩
      · rcases Nat.lt_or_ge i k with earlier | late
        · rw [first.before i (by omega)] at ends
          cases ends
        · obtain rfl : i = k := by omega
          exact ends
      · obtain rfl : k = j := Nat.succ.inj same
        exact found

/-- A repeated comparison is over after as many steps as it takes to come to the first pair that
ends it, or to use up CX. Its flags are those of that pair, and memory is as it was. With CX at zero
it is over after one step and nothing is compared. No step breaks off unless an interrupt is
refused. -/
theorem repeated_comparison (reachable : Reachable start) (at_ : AtComparison start op w mode)
    (uninterrupted : start.Uninterrupted (max (start.comparisons op w mode) 1)) :
    start.FirstStop op w mode (start.comparisons op w mode) ∧
      (∀ k < max (start.comparisons op w mode) 1,
        Compared start op w k start.regs.ip start.prefixes (start.steps k)) ∧
      Compared start op w (start.comparisons op w mode) (start.regs.ip + 1) {}
        (start.steps (max (start.comparisons op w mode) 1)) ∧
      (∀ k < max (start.comparisons op w mode) 1, (start.steps k).step.missing.isSome = true →
        ∃ e ∈ (start.steps k).stepEvents, ∃ line, e.kind = .refusal line) := by
  have keep := reachable.rested.keep
  have first := start.firstStop_comparisons op w mode
  have underway : ∀ k < max (start.comparisons op w mode) 1,
      Compared start op w k start.regs.ip start.prefixes (start.steps k) := fun k before =>
    compared_steps at_ keep first before (uninterrupted.mono (Nat.le_of_lt before))
  refine ⟨first, underway, completed_steps at_ keep first uninterrupted, fun k before => ?_⟩
  exact ((underway k before).step at_ keep first before (uninterrupted k before)).2.2

end

/-- A search for the zero byte that ends a text of two letters. -/
def scanStart : Cpu FlatBus where
  regs := { ip := 0x10, cx := 5, di := 0x20 }
  bus := { memory :=
    (((Memory.zero.set 0x10 0xF2).set 0x11 0xAE).set 0x20 0x41).set 0x21 0x42 }
  config := .ofRatio .i8086 4 false

def scanRepeat : Cpu FlatBus :=
  (((scanStart.syncTimer.setIp 0x11).setPrefixes { rep := some .whileNotZero }).spend 11).retire

theorem reachable_scanRepeat : Reachable scanRepeat := by
  have start : Reachable scanStart :=
    (Reachable.powerOn scanStart.bus scanStart.config).host scanStart.regs scanStart.bus
  have stands : scanStart.syncTimer.Stands (.repeatPrefix .whileNotZero) := by decide
  refine start.stepTo ?_
  rw [Cpu.step_of_stands rfl stands rfl]
  exact Cpu.betweenInstructions_of_off (c := scanRepeat) rfl false

theorem atComparison_scanRepeat : AtComparison scanRepeat .scas .byte .whileNotZero where
  stands := by decide
  compares := rfl
  rep := rfl
  running := rfl
  trap := rfl

theorem comparisons_scanRepeat : scanRepeat.comparisons .scas .byte .whileNotZero = 3 := by
  decide

/-- The zero byte is found with CX at two and DI behind it. -/
theorem repeated_comparison_scan :
    Reachable scanRepeat ∧ AtComparison scanRepeat .scas .byte .whileNotZero ∧
      scanRepeat.Uninterrupted 3 ∧
      Compared scanRepeat .scas .byte 2 0x11 scanRepeat.prefixes (scanRepeat.steps 2) ∧
      Compared scanRepeat .scas .byte 3 0x12 {} (scanRepeat.steps 3) ∧
      (scanRepeat.steps 3).regs.cx = 2 ∧ (scanRepeat.steps 3).regs.di = 0x23 ∧
      (scanRepeat.steps 3).regs.flags.zero = true := by
  have first := scanRepeat.firstStop_comparisons .scas .byte .whileNotZero
  have uninterrupted := uninterrupted_of_off atComparison_scanRepeat rfl first rfl
  obtain ⟨-, underway, completed, -⟩ :=
    repeated_comparison reachable_scanRepeat atComparison_scanRepeat uninterrupted
  rw [comparisons_scanRepeat] at underway completed uninterrupted
  refine ⟨reachable_scanRepeat, atComparison_scanRepeat, uninterrupted, underway 2 (by decide),
    completed, ?_⟩
  have regs : (scanRepeat.steps 3).regs =
      { scanRepeat.comparedRegs .scas .byte 3 with ip := 0x12 } := completed.regs
  rw [regs]
  decide

end RealMode
