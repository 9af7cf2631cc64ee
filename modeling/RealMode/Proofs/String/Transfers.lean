import RealMode.Proofs.Cpu.Reachable
import RealMode.Proofs.Memory.Rom
import RealMode.Proofs.String.Interruption

/-!
Repeated transfers. Under a repeat prefix a string instruction that compares nothing does step by
step what the instruction without the prefix does element by element. The two are told apart by the
counter and the instruction pointer alone, and no element looks at either.
-/

namespace RealMode

namespace FlatBus

/-- The same to a program, whatever becomes of interrupts and ticks. -/
structure SameData (b d : FlatBus) : Prop where
  memory : d.memory = b.memory
  ports : d.ports = b.ports
  portWrites : d.portWrites = b.portWrites

namespace SameData

variable {b d : FlatBus}

theorem refl (b : FlatBus) : SameData b b :=
  ⟨rfl, rfl, rfl⟩

theorem trans {e : FlatBus} (h : SameData b d) (g : SameData d e) : SameData b e :=
  ⟨g.memory.trans h.memory, g.ports.trans h.ports, g.portWrites.trans h.portWrites⟩

theorem read (h : SameData b d) (w : Width) (address : UInt32) :
    Bus.read d w address = Bus.read b w address := by
  cases w with
  | byte =>
      change (d.memory.get address).toUInt16 = (b.memory.get address).toUInt16
      rw [h.memory]
  | word =>
      change d.memory.readWord address = b.memory.readWord address
      rw [h.memory]

theorem write (h : SameData b d) (w : Width) (address : UInt32) (value : UInt16) :
    SameData (Bus.write b w address value) (Bus.write d w address value) := by
  cases w with
  | byte => exact ⟨congrArg (Memory.store · address _) h.memory, h.ports, h.portWrites⟩
  | word => exact ⟨congrArg (Memory.writeWord · address value) h.memory, h.ports, h.portWrites⟩

theorem input (h : SameData b d) (w : Width) (port : UInt16) :
    (Bus.input d w port).1 = (Bus.input b w port).1 ∧
      SameData (Bus.input b w port).2 (Bus.input d w port).2 := by
  cases w with
  | byte =>
      refine ⟨?_, h⟩
      change (d.ports.getD port 0).toUInt16 = (b.ports.getD port 0).toUInt16
      rw [h.ports]
  | word =>
      refine ⟨?_, h⟩
      change wordOfBytes (d.ports.getD port 0) (d.ports.getD (port + 1) 0) =
        wordOfBytes (b.ports.getD port 0) (b.ports.getD (port + 1) 0)
      rw [h.ports]

theorem output (h : SameData b d) (w : Width) (port value : UInt16) :
    SameData (Bus.output b w port value) (Bus.output d w port value) := by
  cases w with
  | byte => exact ⟨h.memory, h.ports, congrArg (Array.push · _) h.portWrites⟩
  | word =>
      exact ⟨h.memory, h.ports,
        congrArg (fun log : Array (UInt16 × UInt8) => (log.push _).push _) h.portWrites⟩

theorem ticks (b : FlatBus) (n : Nat) : SameData b (Bus.ticks b n) := by
  induction n generalizing b with
  | zero => exact refl b
  | succ n ih => exact ⟨(ih (Bus.tick b)).memory, (ih (Bus.tick b)).ports,
      (ih (Bus.tick b)).portWrites⟩

theorem pendingIrq (b : FlatBus) : SameData b (Bus.pendingIrq b).2 := by
  change SameData b b.takeIrq.2
  rw [takeIrq]
  split <;> exact ⟨rfl, rfl, rfl⟩

theorem of_asked (asked : Cpu.Asked b d) : SameData b d := by
  cases asked with
  | no => exact refl b
  | idle => exact pendingIrq b
  | refused => exact ⟨(pendingIrq b).memory, (pendingIrq b).ports, (pendingIrq b).portWrites⟩

end SameData
end FlatBus

open FlatBus (SameData)

/-- `c` is as far as `p`, but for its counter and the place of its instruction. -/
structure InStep (p c : Cpu FlatBus) : Prop where
  regs : c.regs = { p.regs with cx := c.regs.cx, ip := c.regs.ip }
  bus : SameData p.bus c.bus

namespace InStep

variable {p c : Cpu FlatBus}

theorem withCounter (h : InStep p c) (cx ip : UInt16) :
    InStep p { c with regs := { c.regs with cx, ip } } :=
  ⟨by rw [h.regs], h.bus⟩

theorem withRegs (h : InStep p c) {f : Registers → Registers}
    (blind : ∀ (r : Registers) (cx ip : UInt16),
      f { r with cx, ip } = { f r with cx, ip }) :
    InStep { p with regs := f p.regs } { c with regs := f c.regs } := by
  have same : f c.regs = { f p.regs with cx := c.regs.cx, ip := c.regs.ip } := by
    rw [← blind, ← h.regs]
  exact ⟨by rw [same], h.bus⟩

theorem withBus (h : InStep p c) {b d : FlatBus} (same : SameData b d) :
    InStep { p with bus := b } { c with bus := d } :=
  ⟨h.regs, same⟩

theorem seg (h : InStep p c) (r : SegReg) : c.regs.seg r = p.regs.seg r := by
  rw [h.regs]
  cases r <;> rfl

theorem source (h : InStep p c) (segment : c.prefixes.segment = p.prefixes.segment) (w : Width) :
    c.source w = p.source w := by
  have si : c.regs.si = p.regs.si := by rw [h.regs]
  rw [Cpu.source, Cpu.source, Cpu.dataAddress, Cpu.dataAddress, segment, h.seg, si]
  exact h.bus.read w _

theorem setDestination (h : InStep p c) (w : Width) (value : UInt16) :
    InStep (p.setDestination w value) (c.setDestination w value) := by
  have es : c.regs.es = p.regs.es := by rw [h.regs]
  have di : c.regs.di = p.regs.di := by rw [h.regs]
  rw [Cpu.setDestination, Cpu.setDestination, Cpu.extraAddress, Cpu.extraAddress, es, di]
  exact h.withBus (h.bus.write w _ value)

theorem advanceSi (h : InStep p c) (w : Width) : InStep (p.advanceSi w) (c.advanceSi w) :=
  h.withRegs
    (f := fun r => { r with si := r.si + if r.flags.direction then -w.bytes else w.bytes })
    fun _ _ _ => rfl

theorem advanceDi (h : InStep p c) (w : Width) : InStep (p.advanceDi w) (c.advanceDi w) :=
  h.withRegs
    (f := fun r => { r with di := r.di + if r.flags.direction then -w.bytes else w.bytes })
    fun _ _ _ => rfl

theorem stringElement (h : InStep p c) (segment : c.prefixes.segment = p.prefixes.segment)
    {op : StringOp} (transfers : op.compares = false) (w : Width) :
    InStep (p.stringElement op w) (c.stringElement op w) := by
  have ax : c.regs.read w accumulator = p.regs.read w accumulator := by
    rw [h.regs]
    cases w <;> rfl
  have dx : c.regs.dx = p.regs.dx := by rw [h.regs]
  cases op with
  | movs =>
      simp only [Cpu.stringElement, h.source segment]
      exact ((h.setDestination w _).advanceSi w).advanceDi w
  | lods =>
      simp only [Cpu.stringElement, h.source segment]
      refine InStep.advanceSi ?_ w
      exact h.withRegs (f := (Registers.write · w accumulator _)) fun r cx ip => by cases w <;> rfl
  | stos =>
      simp only [Cpu.stringElement, ax]
      exact (h.setDestination w _).advanceDi w
  | ins =>
      obtain ⟨value, bus⟩ := h.bus.input w p.regs.dx
      simp only [Cpu.stringElement, dx, value]
      exact ((h.withBus bus).setDestination w _).advanceDi w
  | outs =>
      simp only [Cpu.stringElement, dx, h.source segment]
      exact (h.withBus (h.bus.output w _ _)).advanceSi w
  | cmps | scas => cases transfers

end InStep

namespace Cpu

/-- So many elements, each by a string instruction without a repeat prefix. An override is in force
for all of them. -/
def afterElements (c : Cpu FlatBus) (op : StringOp) (w : Width) : Nat → Cpu FlatBus
  | 0 => c.endRepeat
  | k + 1 => (c.afterElements op w k).string op w

/-- Behind an opcode of one byte with no prefix in force, when nothing has happened but that the
time of the instruction has gone by. -/
def pastOpcode (c : Cpu FlatBus) (clocks : Nat) : Cpu FlatBus :=
  { c.syncTimer with
    regs := { c.regs with ip := c.regs.ip + 1 }
    prefixes := {}
    clock := c.clock + clocks
    instructions := c.instructions + 1 }

/-- No element is stored over the opcode. In the ROM window that cannot happen. -/
def SparesOpcode (c : Cpu FlatBus) (op : StringOp) (w : Width) : Prop :=
  isRam c.regs.codeAddress → ∀ k < c.regs.cx.toNat,
    c.regs.codeAddress ∉ (c.afterElements op w k).elementWrites op w

variable {c d : Cpu FlatBus} {op : StringOp} {w : Width}

theorem prefixes_afterElements (c : Cpu FlatBus) (op : StringOp) (w : Width) (k : Nat) :
    (c.afterElements op w k).prefixes = { c.prefixes with rep := none } := by
  induction k with
  | zero => rfl
  | succ k ih =>
      have rep : (c.afterElements op w k).prefixes.rep = none := by rw [ih]
      rw [afterElements, string_of_not_rep rep]
      exact ((c.afterElements op w k).prefixes_stringElement op w).trans ih

theorem afterElements_succ (c : Cpu FlatBus) (op : StringOp) (w : Width) (k : Nat) :
    c.afterElements op w (k + 1) =
      ((c.afterElements op w k).stringElement op w).spend (op.clocks false) :=
  string_of_not_rep (congrArg Prefixes.rep (c.prefixes_afterElements op w k))

theorem access_afterElements (c : Cpu FlatBus) (op : StringOp) (w : Width) (k : Nat) :
    Bus.Access c.bus (c.afterElements op w k).bus := by
  induction k with
  | zero => exact .refl
  | succ k ih => exact ih.trans ((c.afterElements op w k).steady_string op w).bus

/-- The opcode is still there after any number of elements. -/
theorem SparesOpcode.get (spares : c.SparesOpcode op w) {k : Nat} (some : k ≤ c.regs.cx.toNat) :
    (c.afterElements op w k).bus.memory.get c.regs.codeAddress =
      c.bus.memory.get c.regs.codeAddress := by
  by_cases ram : isRam c.regs.codeAddress
  · induction k with
    | zero => rfl
    | succ k ih =>
        have outside : wrapAddress c.regs.codeAddress ∉
            (c.afterElements op w k).elementWrites op w := by
          rw [Registers.codeAddress, wrapAddress_physical]
          exact spares ram k some
        rw [afterElements_succ]
        exact (get_stringElement outside).trans (ih (Nat.le_of_succ_le some))
  · exact (c.access_afterElements op w k).sameRom _ (Classical.not_not.1 ram)

theorem loopBounds_stringElement (c : Cpu FlatBus) (op : StringOp) (w : Width) :
    (c.stringElement op w).loopBounds = c.loopBounds := by
  cases op <;> cases w <;> rfl

theorem Polled.eq (polled : Polled c d) : d = c := by
  cases polled with
  | off => rfl
  | idle _ out =>
      change c.bus.takeIrq = _ at out
      rw [FlatBus.takeIrq] at out
      split at out
      · cases out
        rfl
      · cases out

theorem stepEvents_string (running : c.halted = false) (stands : c.syncTimer.Stands (.string op w))
    (trap : c.regs.flags.trap = false) :
    c.stepEvents = (c.stringStep op w).betweenEvents false := by
  rw [stepEvents_of_stands running stands rfl, trap]
  rfl

end Cpu

/-- About to do a repeated transfer. -/
structure AtTransfer (c : Cpu FlatBus) (op : StringOp) (w : Width) (mode : RepeatMode) : Prop where
  stands : c.Stands (.string op w)
  transfers : op.compares = false
  rep : c.prefixes.rep = some mode
  running : c.halted = false
  trap : c.regs.flags.trap = false

/-- So many elements of a repeated transfer have been done. The counter has gone down by as many;
where the instruction stands and which prefixes are in force is told besides. -/
structure Transferred (start : Cpu FlatBus) (op : StringOp) (w : Width) (k : Nat) (ip : UInt16)
    (prefixes : Prefixes) (c : Cpu FlatBus) : Prop where
  inStep : InStep (start.afterElements op w k) c
  inPlace : Cpu.InPlace start c
  loopBounds : c.loopBounds = start.loopBounds
  ip : c.regs.ip = ip
  cx : c.regs.cx.toNat = start.regs.cx.toNat - k
  prefixes : c.prefixes = prefixes

section

variable {start c : Cpu FlatBus} {op : StringOp} {w : Width} {mode : RepeatMode} {k : Nat}
  {ip : UInt16} {prefixes : Prefixes}

namespace Transferred

theorem refl (start : Cpu FlatBus) (op : StringOp) (w : Width) :
    Transferred start op w 0 start.regs.ip start.prefixes start where
  inStep := ⟨rfl, .refl _⟩
  inPlace := ⟨rfl, rfl, rfl, rfl, rfl, rfl, rfl, rfl⟩
  loopBounds := rfl
  ip := rfl
  cx := rfl
  prefixes := rfl

theorem withBus (h : Transferred start op w k ip prefixes c) {bus : FlatBus}
    (same : SameData c.bus bus) : Transferred start op w k ip prefixes { c with bus } :=
  ⟨⟨h.inStep.regs, h.inStep.bus.trans same⟩,
    h.inPlace.trans ⟨rfl, rfl, rfl, rfl, rfl, rfl, rfl, rfl⟩, h.loopBounds, h.ip, h.cx, h.prefixes⟩

/-- The opcode is consumed once again. -/
theorem fetched (h : Transferred start op w k ip prefixes c) :
    Transferred start op w k (ip + 1) prefixes (c.syncTimer.setIp (c.regs.ip + 1)) where
  inStep :=
    ⟨(h.inStep.withCounter c.regs.cx (c.regs.ip + 1)).regs,
      h.inStep.bus.trans (.ticks c.bus c.ticksOwed)⟩
  inPlace := h.inPlace.trans ⟨rfl, rfl, rfl, rfl, rfl, rfl, rfl, rfl⟩
  loopBounds := h.loopBounds
  ip := congrArg (· + 1) h.ip
  cx := h.cx
  prefixes := h.prefixes

theorem countedElement (h : Transferred start op w k ip start.prefixes c)
    (transfers : op.compares = false) (more : k < start.regs.cx.toNat) :
    Transferred start op w (k + 1) ip start.prefixes (c.countedElement op w) where
  inStep := by
    have override : c.prefixes.segment = (start.afterElements op w k).prefixes.segment := by
      rw [h.prefixes, Cpu.prefixes_afterElements]
    have element := h.inStep.stringElement override transfers w
    have counted := element.withCounter ((c.stringElement op w).regs.cx - 1)
      (c.stringElement op w).regs.ip
    rw [Cpu.afterElements_succ]
    exact ⟨counted.regs, counted.bus⟩
  inPlace := h.inPlace.trans (c.inPlace_countedElement op w)
  loopBounds := (c.loopBounds_stringElement op w).trans h.loopBounds
  ip := (c.ip_stringElement op w).trans h.ip
  cx := by
    have one : (1 : UInt16).toNat = 1 := rfl
    have bound := start.regs.cx.toNat_lt
    change ((c.stringElement op w).regs.cx - 1).toNat = _
    rw [c.cx_stringElement, UInt16.toNat_sub, one, h.cx]
    omega
  prefixes := (c.prefixes_stringElement op w).trans h.prefixes

theorem stands (h : Transferred start op w k start.regs.ip prefixes c)
    (at_ : AtTransfer start op w mode) (spares : start.SparesOpcode op w)
    (some : k ≤ start.regs.cx.toNat) : c.syncTimer.Stands (.string op w) := by
  have place : c.regs.codeAddress = start.regs.codeAddress := by
    rw [Registers.codeAddress, h.inPlace.cs, h.ip]
    rfl
  have memory : c.syncTimer.bus.memory = (start.afterElements op w k).bus.memory :=
    c.memory_syncTimer.trans h.inStep.bus.memory
  have config : c.syncTimer.config = start.config := h.inPlace.config
  change Opcode.ofByte c.syncTimer.config.variant
    (c.syncTimer.bus.memory.get c.regs.codeAddress) = _
  rw [memory, place, spares.get some, config]
  exact at_.stands

theorem cx_eq_zero_iff (h : Transferred start op w k ip prefixes c) :
    c.regs.cx = 0 ↔ start.regs.cx.toNat ≤ k := by
  have zero : (0 : UInt16).toNat = 0 := rfl
  rw [← UInt16.toNat_inj, h.cx, zero, Nat.sub_eq_zero_iff_le]

theorem repeatEnds_iff (h : Transferred start op w k ip prefixes c)
    (transfers : op.compares = false) : c.repeatEnds op mode ↔ start.regs.cx.toNat ≤ k := by
  rw [Cpu.repeatEnds, transfers, h.cx_eq_zero_iff]
  exact or_iff_left fun stops => Bool.false_ne_true stops.1

theorem endRepeat (h : Transferred start op w k ip start.prefixes c)
    (keep : start.prefixes.keep = false) (clocks : Nat) :
    Transferred start op w k ip {} (c.endRepeat.spend clocks).retire where
  inStep := ⟨h.inStep.regs, h.inStep.bus⟩
  inPlace := h.inPlace.trans ⟨rfl, rfl, rfl, rfl, rfl, rfl, rfl, rfl⟩
  loopBounds := h.loopBounds
  ip := h.ip
  cx := h.cx
  prefixes := by
    change Prefixes.retire { c.prefixes with rep := none } = {}
    exact Prefixes.retire_of_not_keep (by rw [h.prefixes, keep])

theorem rewind (h : Transferred start op w k (ip + 1) start.prefixes c)
    (keep : start.prefixes.keep = false) (clocks : Nat) :
    Transferred start op w k ip start.prefixes (c.rewind.spend clocks).retire where
  inStep := ⟨(h.inStep.withCounter c.regs.cx (c.regs.ip - 1)).regs, h.inStep.bus⟩
  inPlace := h.inPlace.trans ⟨rfl, rfl, rfl, rfl, rfl, rfl, rfl, rfl⟩
  loopBounds := h.loopBounds
  ip := by
    change c.regs.ip - 1 = ip
    rw [h.ip, UInt16.add_sub_cancel]
  cx := h.cx
  prefixes := by
    change Prefixes.retire { c.prefixes with keep := true } = start.prefixes
    rw [h.prefixes, Prefixes.retire, if_pos rfl, ← keep]

/-- With the opcode consumed, the instruction does the next element, if there is one, and is over
with the last. -/
theorem string (h : Transferred start op w k (start.regs.ip + 1) start.prefixes c)
    (at_ : AtTransfer start op w mode) (keep : start.prefixes.keep = false)
    (before : k < max start.regs.cx.toNat 1) :
    (start.regs.cx.toNat ≤ k + 1 →
      Transferred start op w start.regs.cx.toNat (start.regs.ip + 1) {}
        (c.string op w).retire) ∧
    (k + 1 < start.regs.cx.toNat →
      Transferred start op w (k + 1) start.regs.ip start.prefixes (c.string op w).retire) := by
  have rep : c.prefixes.rep = some mode := by rw [h.prefixes, at_.rep]
  rw [Cpu.string_of_rep rep]
  by_cases none : c.regs.cx = 0
  · have all : start.regs.cx.toNat = k := by
      have := h.cx_eq_zero_iff.1 none
      omega
    refine ⟨fun _ => ?_, fun more => by omega⟩
    rw [Cpu.repeatElement_of_zero none, all]
    exact h.endRepeat keep _
  · have some := mt h.cx_eq_zero_iff.2 none
    have counted := h.countedElement at_.transfers (Nat.lt_of_not_le some)
    refine ⟨fun last => ?_, fun more => ?_⟩
    · have all : start.regs.cx.toNat = k + 1 := by omega
      rw [Cpu.repeatElement_of_ends none ((counted.repeatEnds_iff at_.transfers).2 last), all]
      exact counted.endRepeat keep _
    · have goesOn : ¬ (c.countedElement op w).repeatEnds op mode :=
        mt (counted.repeatEnds_iff at_.transfers).1 (Nat.not_le.2 more)
      rw [Cpu.repeatElement_of_not_ends none goesOn]
      exact counted.rewind keep _

theorem step_string (h : Transferred start op w k start.regs.ip start.prefixes c)
    (at_ : AtTransfer start op w mode) (spares : start.SparesOpcode op w)
    (inside : k ≤ start.regs.cx.toNat) :
    c.stepEvents = (c.stringStep op w).betweenEvents false ∧
      c.step = (c.stringStep op w).betweenInstructions false := by
  have running : c.halted = false := h.inPlace.halted.trans at_.running
  have trap : c.regs.flags.trap = false := h.inPlace.trap.trans at_.trap
  have stands := h.stands at_ spares inside
  exact ⟨Cpu.stepEvents_string running stands trap, Cpu.step_string running stands trap⟩

/-- A step that is not interrupted does one element. It can break off only in refusing an
interrupt. -/
theorem step (h : Transferred start op w k start.regs.ip start.prefixes c)
    (at_ : AtTransfer start op w mode) (keep : start.prefixes.keep = false)
    (spares : start.SparesOpcode op w) (before : k < max start.regs.cx.toNat 1)
    (uninterrupted : ∀ e ∈ c.stepEvents, ∀ line, e.kind ≠ .entry (some line)) :
    (start.regs.cx.toNat ≤ k + 1 →
      Transferred start op w start.regs.cx.toNat (start.regs.ip + 1) {} c.step.cpu) ∧
    (k + 1 < start.regs.cx.toNat →
      Transferred start op w (k + 1) start.regs.ip start.prefixes c.step.cpu) ∧
    (c.step.missing.isSome = true → ∃ e ∈ c.stepEvents, ∃ line, e.kind = .refusal line) := by
  obtain ⟨events, step⟩ := h.step_string at_ spares (by omega)
  rw [events] at uninterrupted ⊢
  rw [step]
  obtain ⟨bus, asked, after, refused⟩ := ((c.stringStep op w).boundary false).unserved uninterrupted
  obtain ⟨last, more⟩ := h.fetched.string at_ keep before
  rw [after]
  exact ⟨fun ended => (last ended).withBus (.of_asked asked),
    fun goesOn => (more goesOn).withBus (.of_asked asked), refused⟩

theorem stepEvents_of_off (h : Transferred start op w k start.regs.ip start.prefixes c)
    (at_ : AtTransfer start op w mode) (spares : start.SparesOpcode op w)
    (before : k < max start.regs.cx.toNat 1) (off : start.regs.flags.interrupt = false) :
    c.stepEvents = [] := by
  have rep : c.prefixes.rep = some mode := by rw [h.prefixes, at_.rep]
  have masked : (c.stringStep op w).regs.flags.interrupt = false := by
    rw [(c.inPlace_stringStep op w rep).interrupt, h.inPlace.interrupt, off]
  rw [(h.step_string at_ spares (by omega)).1, Cpu.betweenEvents_of_off masked]
  rfl

end Transferred

theorem transferred_next (at_ : AtTransfer start op w mode) (keep : start.prefixes.keep = false)
    (spares : start.SparesOpcode op w) (k : Nat) (c : Cpu FlatBus)
    (more : k + 1 < max start.regs.cx.toNat 1)
    (h : Transferred start op w k start.regs.ip start.prefixes c)
    (uninterrupted : ∀ e ∈ c.stepEvents, ∀ line, e.kind ≠ .entry (some line)) :
    Transferred start op w (k + 1) start.regs.ip start.prefixes c.step.cpu :=
  (h.step at_ keep spares (Nat.lt_of_succ_lt more) uninterrupted).2.1 (by omega)

theorem transferred_steps (at_ : AtTransfer start op w mode) (keep : start.prefixes.keep = false)
    (spares : start.SparesOpcode op w) (before : k < max start.regs.cx.toNat 1)
    (uninterrupted : start.Uninterrupted k) :
    Transferred start op w k start.regs.ip start.prefixes (start.steps k) :=
  uninterrupted.invariant (.refl start op w) (transferred_next at_ keep spares) before

/-- With the interrupt flag clear there is nothing to accept. -/
theorem AtTransfer.uninterrupted (at_ : AtTransfer start op w mode)
    (keep : start.prefixes.keep = false) (spares : start.SparesOpcode op w)
    (off : start.regs.flags.interrupt = false) :
    start.Uninterrupted (max start.regs.cx.toNat 1) :=
  .of_silent (.refl start op w) (transferred_next at_ keep spares) fun _ _ before underway =>
    underway.stepEvents_of_off at_ spares before off

theorem transferred_all (at_ : AtTransfer start op w mode) (keep : start.prefixes.keep = false)
    (spares : start.SparesOpcode op w)
    (uninterrupted : start.Uninterrupted (max start.regs.cx.toNat 1)) :
    Transferred start op w start.regs.cx.toNat (start.regs.ip + 1) {}
      (start.steps (max start.regs.cx.toNat 1)) := by
  obtain ⟨k, last⟩ : ∃ k, max start.regs.cx.toNat 1 = k + 1 :=
    ⟨max start.regs.cx.toNat 1 - 1, by omega⟩
  have before : k < max start.regs.cx.toNat 1 := by omega
  have earlier :=
    transferred_steps at_ keep spares before (uninterrupted.mono (Nat.le_of_lt before))
  have done := earlier.step at_ keep spares before (uninterrupted k before)
  rw [last]
  exact done.1 (by omega)

/-- With the counter at zero, all that a step does is go by the opcode and drop the prefixes. -/
theorem step_of_zero (at_ : AtTransfer start op w mode) (keep : start.prefixes.keep = false)
    (spares : start.SparesOpcode op w) (none : start.regs.cx = 0)
    (quiet : start.stepEvents = []) : start.step = .ok (start.pastOpcode (op.clocks true)) := by
  have rep : (start.syncTimer.setIp (start.regs.ip + 1)).prefixes.rep = some mode := at_.rep
  have dropped : Prefixes.retire { start.prefixes with rep := Option.none } = {} :=
    Prefixes.retire_of_not_keep keep
  have ended : start.stringStep op w = start.pastOpcode (op.clocks true) := by
    rw [Cpu.stringStep, Cpu.string_of_rep rep,
      Cpu.repeatElement_of_zero (c := start.syncTimer.setIp (start.regs.ip + 1)) none,
      Cpu.pastOpcode, ← dropped]
    rfl
  obtain ⟨events, step⟩ :=
    (Transferred.refl start op w).step_string at_ spares (Nat.zero_le _)
  have between := (start.stringStep op w).boundary false
  rw [← events, ← step, quiet] at between
  rw [← ended]
  generalize start.step = o at between ⊢
  cases between with
  | nothing polled => rw [polled.eq]
  | missingTrap _ due => cases due

/-- For all `k` below CX, `k` steps of a repeated transfer come to what `k` elements come to, with
the instruction still to be gone on with. As many steps as CX tells, but at least one, complete it:
CX is at zero, IP behind the opcode and no prefix in force. No step breaks off unless an interrupt
is refused. With CX at zero nothing is transferred. -/
theorem repeated_transfer (reachable : Reachable start) (at_ : AtTransfer start op w mode)
    (spares : start.SparesOpcode op w)
    (uninterrupted : start.Uninterrupted (max start.regs.cx.toNat 1)) :
    (∀ k < start.regs.cx.toNat,
        Transferred start op w k start.regs.ip start.prefixes (start.steps k)) ∧
      Transferred start op w start.regs.cx.toNat (start.regs.ip + 1) {}
        (start.steps (max start.regs.cx.toNat 1)) ∧
      (start.steps (max start.regs.cx.toNat 1)).regs.cx = 0 ∧
      (∀ k < max start.regs.cx.toNat 1, (start.steps k).step.missing.isSome = true →
        ∃ e ∈ (start.steps k).stepEvents, ∃ line, e.kind = .refusal line) ∧
      (start.regs.cx = 0 → start.stepEvents = [] →
        start.step = .ok (start.pastOpcode (op.clocks true))) := by
  have keep := reachable.rested.keep
  have underway : ∀ k < max start.regs.cx.toNat 1,
      Transferred start op w k start.regs.ip start.prefixes (start.steps k) := fun k before =>
    transferred_steps at_ keep spares before (uninterrupted.mono (Nat.le_of_lt before))
  have all := transferred_all at_ keep spares uninterrupted
  refine ⟨fun k inside => underway k (by omega), all, all.cx_eq_zero_iff.2 (Nat.le_refl _),
    fun k before => ?_, step_of_zero at_ keep spares⟩
  exact ((underway k before).step at_ keep spares before (uninterrupted k before)).2.2

end

/-- A copy of three bytes to where it reads them from a byte later. -/
def smearStart : Cpu FlatBus where
  regs := { ip := 0x10, cx := 3, si := 0x20, di := 0x21 }
  bus := { memory := ((Memory.zero.set 0x10 0xF3).set 0x11 0xA4).set 0x20 0x5A }
  config := .ofRatio .i8086 4 false

def smearRepeat : Cpu FlatBus :=
  (((smearStart.syncTimer.setIp 0x11).setPrefixes { rep := some .whileZero }).spend 11).retire

theorem reachable_smearRepeat : Reachable smearRepeat := by
  have start : Reachable smearStart :=
    (Reachable.powerOn smearStart.bus smearStart.config).host smearStart.regs smearStart.bus
  have stands : smearStart.syncTimer.Stands (.repeatPrefix .whileZero) := by decide
  refine start.stepTo ?_
  rw [Cpu.step_of_stands rfl stands rfl]
  exact Cpu.betweenInstructions_of_off (c := smearRepeat) rfl false

theorem atTransfer_smearRepeat : AtTransfer smearRepeat .movs .byte .whileZero where
  stands := by decide
  transfers := rfl
  rep := rfl
  running := rfl
  trap := rfl

theorem sparesOpcode_smearRepeat : smearRepeat.SparesOpcode .movs .byte := by
  have apart : ∀ k < 3, smearRepeat.regs.codeAddress ∉
      (smearRepeat.afterElements .movs .byte k).elementWrites .movs .byte := by decide
  exact fun _ => apart

/-- The first byte is all over the destination in the end. -/
theorem repeated_transfer_smear :
    Reachable smearRepeat ∧ AtTransfer smearRepeat .movs .byte .whileZero ∧
      smearRepeat.SparesOpcode .movs .byte ∧ smearRepeat.Uninterrupted 3 ∧
      Transferred smearRepeat .movs .byte 2 0x11 smearRepeat.prefixes (smearRepeat.steps 2) ∧
      Transferred smearRepeat .movs .byte 3 0x12 {} (smearRepeat.steps 3) ∧
      (smearRepeat.steps 3).bus.memory.get 0x23 = 0x5A := by
  have uninterrupted : smearRepeat.Uninterrupted 3 :=
    atTransfer_smearRepeat.uninterrupted rfl sparesOpcode_smearRepeat rfl
  have count : smearRepeat.regs.cx.toNat = 3 := rfl
  have steps : max smearRepeat.regs.cx.toNat 1 = 3 := rfl
  obtain ⟨underway, completed, -⟩ := repeated_transfer reachable_smearRepeat
    atTransfer_smearRepeat sparesOpcode_smearRepeat uninterrupted
  rw [steps, count] at completed
  refine ⟨reachable_smearRepeat, atTransfer_smearRepeat, sparesOpcode_smearRepeat, uninterrupted,
    underway 2 (by decide), completed, ?_⟩
  have same : (smearRepeat.steps 3).bus.memory =
      (smearRepeat.afterElements .movs .byte 3).bus.memory := completed.inStep.bus.memory
  rw [same]
  decide

end RealMode
