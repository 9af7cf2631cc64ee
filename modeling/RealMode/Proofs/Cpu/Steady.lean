import RealMode.Cpu.Step
import RealMode.Proofs.Bus.Access

/-!
What every instruction leaves alone. All of them but the return from an interrupt keep the frames
of the interrupts in service; none touches the configuration or the counters of ticks and
instructions, and to the bus they do nothing but write and use ports: their work is `Steady`. Most
of them touch neither the prefixes nor the halted state, and are `Plain`. The state between two
parts of an instruction is described in the same way, so that an instruction is the sum of its
parts.
-/

namespace RealMode

/-- Whether an instruction leaves the prefixes, the halted state and the interrupts in service
alone. A string instruction does so only without a repeat prefix. -/
def Instr.isPlain : Instr → Bool
  | .iret | .string _ _ | .hlt | .segmentOverride _ | .repeatPrefix _ | .lock => false
  | _ => true

namespace Cpu

variable {β : Type} [Bus β]

/-- `d` comes from `c` by the work of instructions. -/
structure Steady (c d : Cpu β) : Prop where
  config : d.config = c.config
  irqFrames : d.irqFrames = c.irqFrames
  lastTimerTick : d.lastTimerTick = c.lastTimerTick
  instructions : d.instructions = c.instructions
  timerTicks : d.timerTicks = c.timerTicks
  clock : c.clock ≤ d.clock
  bus : Bus.Access c.bus d.bus

namespace Steady

variable {c d e : Cpu β}

theorem refl (c : Cpu β) : Steady c c :=
  ⟨rfl, rfl, rfl, rfl, rfl, Nat.le_refl _, .refl⟩

theorem trans (h : Steady c d) (g : Steady d e) : Steady c e where
  config := g.config.trans h.config
  irqFrames := g.irqFrames.trans h.irqFrames
  lastTimerTick := g.lastTimerTick.trans h.lastTimerTick
  instructions := g.instructions.trans h.instructions
  timerTicks := g.timerTicks.trans h.timerTicks
  clock := Nat.le_trans h.clock g.clock
  bus := h.bus.trans g.bus

theorem withRegs (h : Steady c d) (regs : Registers) : Steady c { d with regs } :=
  ⟨h.config, h.irqFrames, h.lastTimerTick, h.instructions, h.timerTicks, h.clock, h.bus⟩

theorem withPrefixes (h : Steady c d) (prefixes : Prefixes) : Steady c { d with prefixes } :=
  ⟨h.config, h.irqFrames, h.lastTimerTick, h.instructions, h.timerTicks, h.clock, h.bus⟩

theorem withLoopBounds (h : Steady c d) (loopBounds : Option (UInt16 × UInt16)) :
    Steady c { d with loopBounds } :=
  ⟨h.config, h.irqFrames, h.lastTimerTick, h.instructions, h.timerTicks, h.clock, h.bus⟩

theorem withHalted (h : Steady c d) (halted : Bool) : Steady c { d with halted } :=
  ⟨h.config, h.irqFrames, h.lastTimerTick, h.instructions, h.timerTicks, h.clock, h.bus⟩

theorem withBus (h : Steady c d) {bus : β} (access : Bus.Access d.bus bus) :
    Steady c { d with bus } :=
  ⟨h.config, h.irqFrames, h.lastTimerTick, h.instructions, h.timerTicks, h.clock,
    h.bus.trans access⟩

theorem spend (h : Steady c d) (clocks : Nat) : Steady c (d.spend clocks) :=
  ⟨h.config, h.irqFrames, h.lastTimerTick, h.instructions, h.timerTicks,
    Nat.le_trans h.clock (Nat.le_add_right _ _), h.bus⟩

end Steady

/-- `d` comes from `c` by work that touches neither the prefixes nor the halted state. -/
structure Plain (c d : Cpu β) : Prop extends Steady c d where
  prefixes : d.prefixes = c.prefixes
  halted : d.halted = c.halted

namespace Plain

variable {c d e : Cpu β}

theorem refl (c : Cpu β) : Plain c c :=
  ⟨.refl c, rfl, rfl⟩

theorem withRegs (h : Plain c d) (regs : Registers) : Plain c { d with regs } :=
  ⟨h.toSteady.withRegs regs, h.prefixes, h.halted⟩

theorem withLoopBounds (h : Plain c d) (loopBounds : Option (UInt16 × UInt16)) :
    Plain c { d with loopBounds } :=
  ⟨h.toSteady.withLoopBounds loopBounds, h.prefixes, h.halted⟩

theorem withBus (h : Plain c d) {bus : β} (access : Bus.Access d.bus bus) :
    Plain c { d with bus } :=
  ⟨h.toSteady.withBus access, h.prefixes, h.halted⟩

theorem spend (h : Plain c d) (clocks : Nat) : Plain c (d.spend clocks) :=
  ⟨h.toSteady.spend clocks, h.prefixes, h.halted⟩

theorem setFlags (h : Plain c d) (flags : Flags) : Plain c (d.setFlags flags) :=
  h.withRegs _

theorem setIp (h : Plain c d) (ip : UInt16) : Plain c (d.setIp ip) :=
  h.withRegs _

theorem setReg (h : Plain c d) (w : Width) (i : Fin 8) (value : UInt16) :
    Plain c (d.setReg w i value) :=
  h.withRegs _

theorem storeMem (h : Plain c d) (w : Width) (address : UInt32) (value : UInt16) :
    Plain c (d.storeMem w address value) :=
  h.withBus (Bus.Access.refl.write w address value)

theorem store (h : Plain c d) (w : Width) (l : Location) (value : UInt16) :
    Plain c (d.store w l value) := by
  cases l with
  | reg i => exact h.setReg w i value
  | mem address => exact h.storeMem w address value

theorem push (h : Plain c d) (value : UInt16) : Plain c (d.push value) :=
  (h.withRegs _).withBus (Bus.Access.refl.writeWord _ value)

theorem release (h : Plain c d) (bytes : UInt16) : Plain c (d.release bytes) :=
  h.withRegs _

theorem pop (h : Plain c d) : Plain c d.pop.2 :=
  h.release 2

theorem popInto (h : Plain c d) (r : Reg16) : Plain c (d.popInto r) :=
  h.pop.withRegs _

theorem jump (h : Plain c d) (displacement : UInt16) : Plain c (d.jump displacement) :=
  h.setIp _

theorem jumpFar (h : Plain c d) (segment offset : UInt16) : Plain c (d.jumpFar segment offset) :=
  h.withRegs _

theorem call (h : Plain c d) (target : UInt16) : Plain c (d.call target) :=
  (h.push _).setIp target

theorem farCall (h : Plain c d) (segment offset : UInt16) : Plain c (d.farCall segment offset) :=
  ((h.push _).push _).withRegs _

theorem modify (h : Plain c d) (w : Width) (l : Location) (f : Flags → UInt16 → UInt16 × Flags) :
    Plain c (d.modify w l f) :=
  (h.setFlags _).store w l _

theorem test (h : Plain c d) (w : Width) (a b : UInt16) : Plain c (d.test w a b) :=
  h.setFlags _

theorem jumpIf (h : Plain c d) (taken : Bool) (displacement : UInt16) :
    Plain c (d.jumpIf taken displacement) := by
  cases taken with
  | true => exact (h.jump displacement).spend 16
  | false => exact h.spend 4

theorem enterInterrupt (h : Plain c d) (target : UInt16 × UInt16) (mask : Flags → Flags) :
    Plain c (d.enterInterrupt target mask) :=
  (((h.push _).setFlags _).farCall target.1 target.2).spend 51

theorem interrupt (h : Plain c d) (vector : UInt8) (mask : Flags → Flags) :
    Plain c (d.interrupt vector mask).cpu := by
  rw [Cpu.interrupt]
  split
  · exact h.enterInterrupt _ mask
  · exact h

theorem raise (h : Plain c d) (vector : UInt8) : Plain c (d.raise vector).cpu :=
  h.interrupt vector id

theorem foldl (h : Plain c d) {α : Type} {f : Cpu β → α → Cpu β}
    (kept : ∀ {e : Cpu β}, Plain c e → ∀ a, Plain c (f e a)) (as : List α) :
    Plain c (as.foldl f d) := by
  induction as generalizing d with
  | nil => exact h
  | cons a as ih => exact ih (kept h a)

theorem andThen {o : Outcome β} (h : Plain c o.cpu) {f : Cpu β → Outcome β}
    (g : ∀ d, Plain c d → Plain c (f d).cpu) : Plain c (o.andThen f).cpu := by
  obtain ⟨d, missing⟩ := o
  cases missing with
  | none => exact g d h
  | some _ => exact h

/-- There may be a result to be written, or none. -/
theorem result {written : UInt16 → Cpu β} (value : Option UInt16)
    (some : ∀ value, Plain c (written value)) (none : Plain c d) :
    Plain c (match value with | .some value => written value | .none => d) := by
  cases value with
  | none => exact none
  | some value => exact some value

end Plain

namespace Steady

variable {c d : Cpu β}

theorem setIp (h : Steady c d) (ip : UInt16) : Steady c (d.setIp ip) :=
  h.withRegs _

theorem pop (h : Steady c d) : Steady c d.pop.2 :=
  h.withRegs _

theorem enterInterrupt (h : Steady c d) (target : UInt16 × UInt16) (mask : Flags → Flags) :
    Steady c (d.enterInterrupt target mask) :=
  h.trans ((Plain.refl d).enterInterrupt target mask).toSteady

theorem interrupt (h : Steady c d) (vector : UInt8) (mask : Flags → Flags) :
    Steady c (d.interrupt vector mask).cpu :=
  h.trans ((Plain.refl d).interrupt vector mask).toSteady

end Steady

open Plain

variable (c : Cpu β)

theorem plain_aluToRm (op : AluOp) (w : Width) (rm : Operand) (reg : Fin 8) :
    Plain c (c.aluToRm op w rm reg) :=
  .result _ (fun _ => (((refl c).setFlags _).store w _ _).spend _) (((refl c).setFlags _).spend _)

theorem plain_aluToReg (op : AluOp) (w : Width) (reg : Fin 8) (rm : Operand) :
    Plain c (c.aluToReg op w reg rm) :=
  .result _ (fun _ => (((refl c).setFlags _).setReg w reg _).spend _)
    (((refl c).setFlags _).spend _)

theorem plain_aluImm (op : AluOp) (w : Width) (rm : Operand) (value : UInt16) :
    Plain c (c.aluImm op w rm value) :=
  .result _ (fun _ => (((refl c).setFlags _).store w _ _).spend _) (((refl c).setFlags _).spend _)

theorem plain_aluAcc (op : AluOp) (w : Width) (value : UInt16) : Plain c (c.aluAcc op w value) :=
  .result _ (fun _ => (((refl c).setFlags _).setReg w accumulator _).spend _)
    (((refl c).setFlags _).spend _)

theorem plain_div (signed : Bool) (w : Width) (rm : Operand) :
    Plain c (c.div signed w rm).cpu := by
  rw [div]
  split
  · exact ((refl c).spend _).withRegs _
  · exact ((refl c).spend _).raise _

theorem plain_aam (base : UInt8) : Plain c (c.aam base).cpu := by
  rw [aam]
  dsimp only
  split
  · exact ((refl c).spend 83).withRegs _
  · exact ((refl c).spend 83).raise _

theorem plain_copyDisplay (n : Nat) {d : Cpu β} (h : Plain c d) :
    Plain c (d.copyDisplay n) := by
  induction n generalizing d with
  | zero => exact h
  | succ n ih => exact ih ((h.withRegs _).push _)

theorem plain_enter (size : UInt16) (level : UInt8) : Plain c (c.enter size level) := by
  rw [enter]
  dsimp only
  refine Plain.spend (Plain.withRegs ?_ _) _
  split
  · exact (refl c).push _
  · exact (c.plain_copyDisplay _ ((refl c).push _)).push _

theorem plain_pushAll : Plain c c.pushAll :=
  ((refl c).foldl Plain.push _).spend 19

theorem plain_popAll : Plain c c.popAll :=
  ((((refl c).foldl Plain.popInto _).release 2).foldl Plain.popInto _).spend 19

theorem plain_loop (test : LoopTest) (displacement : UInt8) :
    Plain c (c.loop test displacement) := by
  rw [loop]
  dsimp only
  refine Plain.spend ?_ _
  split
  · exact (((refl c).withRegs _).setIp _).withLoopBounds _
  · exact ((refl c).withRegs _).withLoopBounds none

theorem plain_ret (arguments : Option UInt16) : Plain c (c.ret arguments) := by
  rw [ret]
  dsimp only
  cases arguments with
  | none => exact ((refl c).pop.setIp _).spend 8
  | some bytes => exact (((refl c).pop.setIp _).release bytes).spend 12

theorem plain_retFar (arguments : Option UInt16) : Plain c (c.retFar arguments) := by
  rw [retFar]
  dsimp only
  cases arguments with
  | none => exact ((refl c).pop.pop.jumpFar _ _).spend 18
  | some bytes => exact (((refl c).pop.pop.jumpFar _ _).release bytes).spend 17

theorem plain_bound (reg : Fin 8) (m : MemOperand) : Plain c (c.bound reg m).cpu := by
  rw [bound]
  dsimp only
  split
  · exact ((refl c).spend _).raise _
  · exact (refl c).spend _

theorem plain_int3 : Plain c c.int3.cpu :=
  ((refl c).raise _).andThen fun _ h => h.spend 1

theorem plain_into : Plain c c.into.cpu := by
  rw [into]
  split
  · exact ((refl c).raise _).andThen fun _ h => h.spend 6
  · exact (refl c).spend 4

theorem plain_unknown : Plain c c.unknown.cpu := by
  rw [unknown]
  split
  · exact refl c
  · exact (refl c).raise _

theorem plain_escape (rm : Operand) : Plain c (c.escape rm).cpu := by
  rw [escape]
  split
  · exact (refl c).spend _
  · exact ((refl c).spend _).raise _

theorem Plain.stringElement {c d : Cpu β} (h : Plain c d) (op : StringOp) (w : Width) :
    Plain c (d.stringElement op w) := by
  cases op with
  | movs => exact ((h.storeMem w _ _).withRegs _).withRegs _
  | cmps => exact ((h.setFlags _).withRegs _).withRegs _
  | scas => exact (h.setFlags _).withRegs _
  | lods => exact (h.setReg w accumulator _).withRegs _
  | stos => exact (h.storeMem w _ _).withRegs _
  | ins => exact ((h.withBus (Bus.Access.refl.input w _)).storeMem w _ _).withRegs _
  | outs => exact (h.withBus (Bus.Access.refl.output w _ _)).withRegs _

theorem steady_string (op : StringOp) (w : Width) : Steady c (c.string op w) := by
  rw [string]
  split
  · exact (((Plain.refl c).stringElement op w).spend _).toSteady
  · refine Steady.spend ?_ _
    have element := ((Plain.refl c).stringElement op w).toSteady
    rw [repeatElement]
    split
    · exact (Steady.refl c).withPrefixes _
    · dsimp only
      split
      · exact (element.withRegs _).withPrefixes _
      · exact ((element.withRegs _).withRegs _).withPrefixes _

theorem plain_exec {i : Instr} (plain : i.isPlain = true) : Plain c (c.exec i).cpu := by
  cases i with
  | unknown => exact c.plain_unknown
  | aluToRm op w rm reg => exact c.plain_aluToRm op w rm reg
  | aluToReg op w reg rm => exact c.plain_aluToReg op w reg rm
  | aluImm op w rm value => exact c.plain_aluImm op w rm value
  | aluAcc op w value => exact c.plain_aluAcc op w value
  | testReg w rm reg => exact ((refl c).test w _ _).spend _
  | testAcc w value => exact ((refl c).test w _ _).spend _
  | testImm w rm value => exact ((refl c).test w _ _).spend _
  | incReg reg => exact ((refl c).modify .word _ _).spend _
  | decReg reg => exact ((refl c).modify .word _ _).spend _
  | incRm w rm => exact ((refl c).modify w _ _).spend _
  | decRm w rm => exact ((refl c).modify w _ _).spend _
  | complement w rm => exact ((refl c).modify w _ _).spend _
  | negate w rm => exact ((refl c).modify w _ _).spend _
  | mul signed w rm => exact ((refl c).withRegs _).spend _
  | div signed w rm => exact c.plain_div signed w rm
  | mulImm reg rm value => exact (((refl c).setFlags _).setReg .word reg _).spend _
  | shift op w rm count => exact ((refl c).modify w _ _).spend _
  | decimal op => exact ((refl c).withRegs _).spend _
  | aam base => exact c.plain_aam base
  | aad base => exact ((refl c).withRegs _).spend _
  | cbw => exact ((refl c).withRegs _).spend _
  | cwd => exact ((refl c).withRegs _).spend _
  | salc => exact ((refl c).withRegs _).spend _
  | movToRm w rm reg => exact ((refl c).store w _ _).spend _
  | movToReg w reg rm => exact ((refl c).setReg w reg _).spend _
  | movImm w rm value => exact ((refl c).store w _ value).spend _
  | movRegImm w reg value => exact ((refl c).setReg w reg value).spend _
  | movFromSeg rm seg => exact ((refl c).store .word _ _).spend _
  | movToSeg seg rm => exact ((refl c).withRegs _).spend _
  | movAccFrom w offset => exact ((refl c).setReg w accumulator _).spend _
  | movAccTo w offset => exact ((refl c).storeMem w _ _).spend _
  | lea reg m => exact ((refl c).setReg .word reg _).spend _
  | loadFar seg reg m => exact (((refl c).setReg .word reg _).withRegs _).spend _
  | xchgRm w rm reg => exact (((refl c).setReg w reg _).store w _ _).spend _
  | xchgAcc reg => exact (((refl c).setReg .word accumulator _).setReg .word reg _).spend _
  | nop => exact (refl c).spend _
  | xlat => exact ((refl c).withRegs _).spend _
  | lahf => exact ((refl c).withRegs _).spend _
  | sahf => exact ((refl c).setFlags _).spend _
  | pushReg reg => exact ((refl c).push _).spend _
  | popReg reg => exact ((refl c).pop.setReg .word reg _).spend _
  | pushSeg seg => exact ((refl c).push _).spend _
  | popSeg seg => exact ((refl c).pop.withRegs _).spend _
  | pushRm rm => exact ((refl c).push _).spend _
  | popRm rm => exact ((refl c).pop.store .word _ _).spend _
  | pushImm value => exact ((refl c).push value).spend _
  | pushFlags => exact ((refl c).push _).spend _
  | popFlags => exact ((refl c).pop.setFlags _).spend _
  | pushAll => exact c.plain_pushAll
  | popAll => exact c.plain_popAll
  | enter size level => exact c.plain_enter size level
  | leave => exact (((refl c).withRegs _).popInto .bp).spend _
  | jumpIf code displacement => exact (refl c).jumpIf _ displacement
  | jumpIfCxZero displacement => exact ((refl c).jumpIf _ displacement).spend 2
  | loop test displacement => exact c.plain_loop test displacement
  | jump displacement => exact ((refl c).jump displacement).spend 15
  | jumpFar segment offset => exact ((refl c).jumpFar segment offset).spend 15
  | jumpRm rm => exact ((refl c).setIp _).spend _
  | jumpFarMem m => exact ((refl c).jumpFar _ _).spend _
  | call displacement => exact ((refl c).call _).spend 19
  | callFar segment offset => exact ((refl c).farCall segment offset).spend 28
  | callRm rm => exact ((refl c).call _).spend _
  | callFarMem m => exact ((refl c).farCall _ _).spend _
  | ret arguments => exact c.plain_ret arguments
  | retFar arguments => exact c.plain_retFar arguments
  | bound reg m => exact c.plain_bound reg m
  | int3 => exact c.plain_int3
  | int vector => exact (refl c).raise vector
  | into => exact c.plain_into
  | iret | string | hlt | segmentOverride | repeatPrefix | lock =>
      exact absurd plain Bool.false_ne_true
  | input w port => exact (((refl c).withBus (Bus.Access.refl.input w _)).setReg w _ _).spend _
  | output w port => exact ((refl c).withBus (Bus.Access.refl.output w _ _)).spend _
  | flag op => exact ((refl c).setFlags _).spend 2
  | wait => exact (refl c).spend 3
  | escape rm => exact c.plain_escape rm

/-- Of all instructions only the return from an interrupt is more than steady work. -/
theorem steady_exec {i : Instr} (notReturn : i ≠ .iret) : Steady c (c.exec i).cpu := by
  by_cases plain : i.isPlain = true
  · exact (c.plain_exec plain).toSteady
  · cases i with
    | iret => exact absurd rfl notReturn
    | string op w => exact c.steady_string op w
    | hlt => exact (((Steady.refl c).withLoopBounds none).withHalted true).spend 2
    | segmentOverride seg => exact ((Steady.refl c).withPrefixes _).spend 2
    | repeatPrefix mode => exact ((Steady.refl c).withPrefixes _).spend 11
    | lock => exact ((Steady.refl c).withPrefixes _).spend 2
    | _ => exact absurd rfl plain

theorem halted_string (op : StringOp) (w : Width) : (c.string op w).halted = c.halted := by
  have element := ((Plain.refl c).stringElement op w).halted
  rw [string]
  split
  · exact element
  · change (repeatElement _ _ _ _).halted = _
    rw [repeatElement]
    split
    · rfl
    · dsimp only
      split <;> exact element

theorem halted_returnFromInterrupt : c.returnFromInterrupt.halted = c.halted := by
  rw [returnFromInterrupt]
  dsimp only
  split
  · split <;> rfl
  · rfl

/-- Of all instructions only the halt stops the processor, and none wakes it. -/
theorem halted_exec {i : Instr} (notHalt : i ≠ .hlt) : (c.exec i).cpu.halted = c.halted := by
  by_cases plain : i.isPlain = true
  · exact (c.plain_exec plain).halted
  · cases i with
    | hlt => exact absurd rfl notHalt
    | iret => exact c.halted_returnFromInterrupt
    | string op w => exact c.halted_string op w
    | segmentOverride | repeatPrefix | lock => rfl
    | _ => exact absurd rfl plain

end Cpu
end RealMode
