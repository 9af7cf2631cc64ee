import RealMode.Proofs.Decode.Operands
import RealMode.Proofs.String.Elements

/-!
What an instruction with a ModRM byte touches of memory. The address of the operand is that of the
state in which the instruction begins, whatever becomes of its registers meanwhile: no byte besides
those of the operand tells in the result, and no other byte changes, but for the stack and the
vectors of exceptions.
-/

namespace RealMode

/-- How many bytes of its operand an instruction goes to. -/
inductive Extent where
  | nothing
  | operand (w : Width)
  /-- Two words: a pointer, or the bounds of an index. -/
  | pair

def Extent.bytes (address : UInt32) : Extent → List UInt32
  | nothing => []
  | operand w => operandBytes w address
  | pair => wordBytes address ++ wordBytes (address + 2)

/-- The words that are pushed from here on. -/
def pushedBytes (ss sp : UInt16) : Nat → List UInt32
  | 0 => []
  | n + 1 => wordBytes (physical ss (sp - 2)) ++ pushedBytes ss (sp - 2) n

namespace Instr

def extent : Instr → Extent
  | aluToRm _ w _ _ | aluToReg _ w _ _ | aluImm _ w _ _ => .operand w
  | testReg w _ _ | testImm w _ _ => .operand w
  | incRm w _ | decRm w _ | complement w _ | negate w _ | mul _ w _ | div _ w _ => .operand w
  | shift _ w _ _ | movToRm w _ _ | movToReg w _ _ | movImm w _ _ | xchgRm w _ _ => .operand w
  | mulImm _ _ _ | movFromSeg _ _ | movToSeg _ _ | pushRm _ | popRm _ => .operand .word
  | jumpRm _ | callRm _ => .operand .word
  | loadFar _ _ _ | jumpFarMem _ | callFarMem _ | bound _ _ => .pair
  | _ => .nothing

/-- Whether the result goes to the operand that the ModRM byte names. -/
def writesOperand : Instr → Bool
  | aluToRm op _ _ _ | aluImm op _ _ _ => op != .cmp
  | incRm _ _ | decRm _ _ | complement _ _ | negate _ _ | shift _ _ _ _ => true
  | movToRm _ _ _ | movImm _ _ _ | movFromSeg _ _ | xchgRm _ _ _ | popRm _ => true
  | _ => false

/-- How many words an instruction with a ModRM byte pushes at most. -/
def pushes : Instr → Nat
  | pushRm _ | callRm _ => 1
  | callFarMem _ => 2
  | div _ _ _ | bound _ _ | escape _ => 3
  | _ => 0

/-- The exception that an instruction with a ModRM byte may raise. -/
def exception? : Instr → Option Exception
  | div _ _ _ => some .divideError
  | bound _ _ => some .boundRange
  | escape _ => some .coprocessorUnavailable
  | _ => none

end Instr

namespace Cpu

variable {β : Type}

/-- The bytes of the operand in memory, at its address now. -/
def operandPlaces (c : Cpu β) (i : Instr) : List UInt32 :=
  match i.operand? with
  | some (.mem m) => i.extent.bytes (c.address m)
  | _ => []

/-- The bytes that the result depends on. -/
def operandReads (c : Cpu β) (i : Instr) : List UInt32 :=
  c.operandPlaces i ++
    ((match i with
      | .popRm _ => wordBytes (physical c.regs.ss c.regs.sp)
      | _ => []) ++
    match i.exception? with
      | some e => Extent.pair.bytes (vectorAddress e.vector)
      | none => [])

/-- The bytes that may change. -/
def operandWrites (c : Cpu β) (i : Instr) : List UInt32 :=
  (if i.writesOperand then c.operandPlaces i else []) ++
    pushedBytes c.regs.ss c.regs.sp i.pushes

end Cpu

def Location.bytes (w : Width) : Location → List UInt32
  | reg _ => []
  | mem address => operandBytes w address

open MemoryBus (memory)

variable {β : Type} [Bus β] [MemoryBus β]

theorem Alike.address {places : List UInt32} {p c : Cpu β} (h : Alike places p c)
    (m : MemOperand) : c.address m = p.address m := by
  rw [Cpu.address, Cpu.address, h.regs, h.prefixes]

theorem Alike.locate {places : List UInt32} {p c : Cpu β} (h : Alike places p c) (rm : Operand) :
    c.locate rm = p.locate rm := by
  cases rm with
  | reg i => rfl
  | mem m => exact congrArg Location.mem (h.address m)

/-- Two processors in the middle of one instruction: only `places` tell them apart, and since its
start nothing but `written` has changed. -/
structure Abreast (places written : List UInt32) (start : Memory) (p c : Cpu β) : Prop
    extends Alike places p c where
  changed : Memory.AgreeOutside written start (MemoryBus.memory p.bus)

/-- As for two processors, with what may have broken off their work. -/
structure Outcome.Abreast (places written : List UInt32) (start : Memory) (o q : Outcome β) :
    Prop where
  missing : q.missing = o.missing
  cpu : RealMode.Abreast places written start o.cpu q.cpu

namespace Abreast

variable {places written : List UInt32} {start : Memory} {p c : Cpu β}

theorem withRegs (h : Abreast places written start p c) (f : Registers → Registers) :
    Abreast places written start { p with regs := f p.regs } { c with regs := f c.regs } :=
  ⟨h.toAlike.withRegs f, h.changed⟩

theorem spend (h : Abreast places written start p c) (clocks : Nat) :
    Abreast places written start (p.spend clocks) (c.spend clocks) :=
  ⟨h.toAlike.spend clocks, h.changed⟩

theorem setFlags (h : Abreast places written start p c) (flags : Flags) :
    Abreast places written start (p.setFlags flags) (c.setFlags flags) :=
  h.withRegs fun regs => { regs with flags }

theorem setIp (h : Abreast places written start p c) (ip : UInt16) :
    Abreast places written start (p.setIp ip) (c.setIp ip) :=
  h.withRegs fun regs => { regs with ip }

theorem setReg (h : Abreast places written start p c) (w : Width) (i : Fin 8) (value : UInt16) :
    Abreast places written start (p.setReg w i value) (c.setReg w i value) :=
  h.withRegs fun regs => regs.write w i value

theorem jumpFar (h : Abreast places written start p c) (segment offset : UInt16) :
    Abreast places written start (p.jumpFar segment offset) (c.jumpFar segment offset) :=
  h.withRegs fun regs => { regs with cs := segment, ip := offset }

theorem release (h : Abreast places written start p c) (bytes : UInt16) :
    Abreast places written start (p.release bytes) (c.release bytes) :=
  h.withRegs fun regs => { regs with sp := regs.sp + bytes }

theorem load (h : Abreast places written start p c) {w : Width} {l : Location}
    (outside : ∀ byte ∈ l.bytes w, byte ∉ places) : c.load w l = p.load w l := by
  cases l with
  | reg i => rw [Cpu.load, Cpu.load, h.regs]
  | mem address => exact h.toAlike.read outside

theorem storeMem (h : Abreast places written start p c) {w : Width} {address : UInt32}
    (value : UInt16) (inside : ∀ byte ∈ operandBytes w address, byte ∈ written) :
    Abreast places written start (p.storeMem w address value) (c.storeMem w address value) where
  toAlike := h.toAlike.storeMem w address value
  changed := by
    intro byte outside
    rw [p.get_storeMem value fun member => outside (inside _ member), h.changed byte outside]

theorem store (h : Abreast places written start p c) {w : Width} {l : Location} (value : UInt16)
    (inside : ∀ byte ∈ l.bytes w, byte ∈ written) :
    Abreast places written start (p.store w l value) (c.store w l value) := by
  cases l with
  | reg i => exact h.setReg w i value
  | mem address => exact h.storeMem value inside

theorem push (h : Abreast places written start p c) (value : UInt16)
    (inside : ∀ byte ∈ wordBytes (physical p.regs.ss (p.regs.sp - 2)), byte ∈ written) :
    Abreast places written start (p.push value) (c.push value) := by
  have stored := h.storeMem (w := .word) value inside
  have moved := stored.withRegs fun regs => { regs with sp := regs.sp - 2 }
  have same : c.push value =
      { c.storeMem .word (physical p.regs.ss (p.regs.sp - 2)) value with
        regs := { c.regs with sp := c.regs.sp - 2 } } := by
    rw [Cpu.push, h.regs]
    rfl
  rw [same]
  exact moved

theorem readFar (h : Abreast places written start p c) {address : UInt32}
    (outside : ∀ byte ∈ Extent.pair.bytes address, byte ∉ places) :
    Bus.readFar c.bus address = Bus.readFar p.bus address := by
  have offset : Bus.read c.bus .word address = Bus.read p.bus .word address :=
    h.toAlike.read fun byte member => outside byte (List.mem_append_left _ member)
  have segment : Bus.read c.bus .word (address + 2) = Bus.read p.bus .word (address + 2) :=
    h.toAlike.read fun byte member => outside byte (List.mem_append_right _ member)
  exact Prod.ext offset segment

theorem farCall (h : Abreast places written start p c) (segment offset : UInt16)
    (inside : ∀ byte ∈ pushedBytes p.regs.ss p.regs.sp 2, byte ∈ written) :
    Abreast places written start (p.farCall segment offset) (c.farCall segment offset) := by
  have first := h.push p.regs.cs fun byte member => inside byte (List.mem_append_left _ member)
  have second := first.push (p.push p.regs.cs).regs.ip fun byte member =>
    inside byte (List.mem_append_right _ (List.mem_append_left _ member))
  have same : c.farCall segment offset =
      ((c.push p.regs.cs).push (p.push p.regs.cs).regs.ip).jumpFar segment offset := by
    rw [Cpu.farCall, h.regs]
    rfl
  rw [same]
  exact second.jumpFar segment offset

theorem enterInterrupt (h : Abreast places written start p c) (target : UInt16 × UInt16)
    (mask : Flags → Flags) (inside : ∀ byte ∈ pushedBytes p.regs.ss p.regs.sp 3, byte ∈ written) :
    Abreast places written start (p.enterInterrupt target mask) (c.enterInterrupt target mask) := by
  have first := h.push p.regs.flags.toWord fun byte member =>
    inside byte (List.mem_append_left _ member)
  have masked := first.setFlags (mask (p.push p.regs.flags.toWord).regs.flags)
  have same : c.enterInterrupt target mask =
      (((c.push p.regs.flags.toWord).setFlags
        (mask (p.push p.regs.flags.toWord).regs.flags)).farCall target.1 target.2).spend 51 := by
    rw [Cpu.enterInterrupt, h.regs, first.regs]
  rw [same]
  exact (masked.farCall target.1 target.2 fun byte member =>
    inside byte (List.mem_append_right _ member)).spend 51

theorem raise (h : Abreast places written start p c) (e : Exception)
    (outside : ∀ byte ∈ Extent.pair.bytes (vectorAddress e.vector), byte ∉ places)
    (inside : ∀ byte ∈ pushedBytes p.regs.ss p.regs.sp 3, byte ∈ written) :
    Outcome.Abreast places written start (p.raise e.vector) (c.raise e.vector) := by
  have handler : c.handler e.vector = p.handler e.vector := by
    rw [Cpu.handler, Cpu.handler, h.readFar outside, h.config]
  rw [Cpu.raise, Cpu.raise, Cpu.interrupt, Cpu.interrupt, handler]
  cases p.handler e.vector with
  | ok target => exact ⟨rfl, h.enterInterrupt target id inside⟩
  | error missing => exact ⟨rfl, h⟩

section

variable {rm : Operand} {w : Width} {op : AluOp} {reg : Fin 8}

theorem modify (h : Abreast places written start p c) (f : Flags → UInt16 → UInt16 × Flags)
    (outside : ∀ byte ∈ (p.locate rm).bytes w, byte ∉ places)
    (inside : ∀ byte ∈ (p.locate rm).bytes w, byte ∈ written) :
    Abreast places written start (p.modify w (p.locate rm) f) (c.modify w (c.locate rm) f) := by
  simp only [Cpu.modify, h.toAlike.locate rm, h.load outside, h.regs]
  exact (h.setFlags _).store _ inside

theorem aluToRm (h : Abreast places written start p c)
    (outside : ∀ byte ∈ (p.locate rm).bytes w, byte ∉ places)
    (inside : op ≠ .cmp → ∀ byte ∈ (p.locate rm).bytes w, byte ∈ written) :
    Abreast places written start (p.aluToRm op w rm reg) (c.aluToRm op w rm reg) := by
  simp only [Cpu.aluToRm, h.toAlike.locate rm, h.load outside, h.regs]
  split
  next result =>
    refine ((h.setFlags _).store _ (inside ?_)).spend _
    rintro rfl
    cases result
  next => exact (h.setFlags _).spend _

theorem aluImm (h : Abreast places written start p c) (value : UInt16)
    (outside : ∀ byte ∈ (p.locate rm).bytes w, byte ∉ places)
    (inside : op ≠ .cmp → ∀ byte ∈ (p.locate rm).bytes w, byte ∈ written) :
    Abreast places written start (p.aluImm op w rm value) (c.aluImm op w rm value) := by
  simp only [Cpu.aluImm, h.toAlike.locate rm, h.load outside, h.regs]
  split
  next result =>
    refine ((h.setFlags _).store _ (inside ?_)).spend _
    rintro rfl
    cases result
  next => exact (h.setFlags _).spend _

theorem aluToReg (h : Abreast places written start p c)
    (outside : ∀ byte ∈ (p.locate rm).bytes w, byte ∉ places) :
    Abreast places written start (p.aluToReg op w reg rm) (c.aluToReg op w reg rm) := by
  simp only [Cpu.aluToReg, h.toAlike.locate rm, h.load outside, h.regs]
  split
  · exact ((h.setFlags _).setReg w reg _).spend _
  · exact (h.setFlags _).spend _

theorem div (h : Abreast places written start p c) {signed : Bool}
    (outside : ∀ byte ∈ (p.locate rm).bytes w, byte ∉ places)
    (vector : ∀ byte ∈ Extent.pair.bytes (vectorAddress Exception.divideError.vector),
      byte ∉ places)
    (inside : ∀ byte ∈ pushedBytes p.regs.ss p.regs.sp 3, byte ∈ written) :
    Outcome.Abreast places written start (p.div signed w rm) (c.div signed w rm) := by
  simp only [Cpu.div, h.toAlike.locate rm, h.load outside, h.regs]
  split
  · exact ⟨rfl, (h.spend _).withRegs fun regs => Cpu.withQuotient regs w _⟩
  · exact (h.spend _).raise .divideError vector inside

theorem bound (h : Abreast places written start p c) {m : MemOperand}
    (outside : ∀ byte ∈ Extent.pair.bytes (p.address m), byte ∉ places)
    (vector : ∀ byte ∈ Extent.pair.bytes (vectorAddress Exception.boundRange.vector),
      byte ∉ places)
    (inside : ∀ byte ∈ pushedBytes p.regs.ss p.regs.sp 3, byte ∈ written) :
    Outcome.Abreast places written start (p.bound reg m) (c.bound reg m) := by
  simp only [Cpu.bound, h.toAlike.address m, h.readFar outside, h.regs]
  split
  · exact (h.spend _).raise .boundRange vector inside
  · exact ⟨rfl, h.spend _⟩

theorem escape (h : Abreast places written start p c)
    (vector : ∀ byte ∈ Extent.pair.bytes (vectorAddress Exception.coprocessorUnavailable.vector),
      byte ∉ places)
    (inside : ∀ byte ∈ pushedBytes p.regs.ss p.regs.sp 3, byte ∈ written) :
    Outcome.Abreast places written start (p.escape rm) (c.escape rm) := by
  have variant : (c.spend (rm.cost 2 8)).config = (p.spend (rm.cost 2 8)).config := h.config
  simp only [Cpu.escape, variant]
  split
  · exact ⟨rfl, h.spend _⟩
  · exact (h.spend _).raise .coprocessorUnavailable vector inside

theorem mul (h : Abreast places written start p c) {signed : Bool}
    (outside : ∀ byte ∈ (p.locate rm).bytes w, byte ∉ places) :
    Abreast places written start (p.mul signed w rm) (c.mul signed w rm) := by
  simp only [Cpu.mul, h.toAlike.locate rm, h.load outside, h.regs]
  exact (h.withRegs fun _ => _).spend _

theorem xchgRm (h : Abreast places written start p c)
    (outside : ∀ byte ∈ (p.locate rm).bytes w, byte ∉ places)
    (inside : ∀ byte ∈ (p.locate rm).bytes w, byte ∈ written) :
    Abreast places written start (p.xchgRm w rm reg) (c.xchgRm w rm reg) := by
  simp only [Cpu.xchgRm, h.toAlike.locate rm, h.load outside, h.regs]
  exact ((h.setReg w reg _).store _ inside).spend _

theorem popRm (h : Abreast places written start p c)
    (top : ∀ byte ∈ wordBytes (physical p.regs.ss p.regs.sp), byte ∉ places)
    (inside : ∀ byte ∈ (p.locate rm).bytes .word, byte ∈ written) :
    Abreast places written start (p.popRm rm) (c.popRm rm) := by
  have value : c.top = p.top := by
    rw [Cpu.top, Cpu.top, h.regs]
    exact h.toAlike.read (w := .word) top
  simp only [Cpu.popRm, Cpu.pop, h.toAlike.locate rm, value]
  exact ((h.release 2).store _ inside).spend _

theorem callRm (h : Abreast places written start p c)
    (outside : ∀ byte ∈ (p.locate rm).bytes .word, byte ∉ places)
    (inside : ∀ byte ∈ pushedBytes p.regs.ss p.regs.sp 1, byte ∈ written) :
    Abreast places written start (p.callRm rm) (c.callRm rm) := by
  simp only [Cpu.callRm, Cpu.call, h.toAlike.locate rm, h.load outside, h.regs]
  exact ((h.push _ fun byte member => inside byte (List.mem_append_left _ member)).setIp _).spend _

theorem pushRm (h : Abreast places written start p c)
    (outside : ∀ byte ∈ (p.locate rm).bytes .word, byte ∉ places)
    (inside : ∀ byte ∈ pushedBytes p.regs.ss p.regs.sp 1, byte ∈ written) :
    Abreast places written start (p.pushRm rm) (c.pushRm rm) := by
  simp only [Cpu.pushRm, h.toAlike.locate rm, h.load outside]
  exact (h.push _ fun byte member => inside byte (List.mem_append_left _ member)).spend _

end

end Abreast

theorem Outcome.Abreast.ok {places written : List UInt32} {start : Memory} {p c : Cpu β}
    (h : RealMode.Abreast places written start p c) :
    Outcome.Abreast places written start (.ok p) (.ok c) :=
  ⟨rfl, h⟩

namespace Alike

variable {places : List UInt32} {p c : Cpu β}

/-- An instruction does the same in two memories that differ nowhere it reads, and changes nothing
but what it writes. -/
theorem exec_operand (h : Alike places p c) {i : Instr} {rm : Operand}
    (names : i.operand? = some rm) (outside : ∀ byte ∈ p.operandReads i, byte ∉ places) :
    Outcome.Abreast places (p.operandWrites i) (MemoryBus.memory p.bus) (p.exec i) (c.exec i) := by
  have abreast : Abreast places (p.operandWrites i) (MemoryBus.memory p.bus) p c := ⟨h, .refl _ _⟩
  have operand : ∀ {w}, i.extent = .operand w → (p.locate rm).bytes w = p.operandPlaces i := by
    intro w extent
    rw [Cpu.operandPlaces, names, extent]
    cases rm <;> rfl
  have pair : i.extent = .pair → ∀ {m}, rm = .mem m →
      ∀ byte ∈ Extent.pair.bytes (p.address m), byte ∉ places := by
    rintro extent m rfl byte member
    refine outside byte (List.mem_append_left _ ?_)
    rwa [Cpu.operandPlaces, names, extent]
  have reads : ∀ {w}, i.extent = .operand w → ∀ byte ∈ (p.locate rm).bytes w, byte ∉ places := by
    intro w extent byte member
    rw [operand extent] at member
    exact outside byte (List.mem_append_left _ member)
  have writes : ∀ {w}, i.extent = .operand w → i.writesOperand = true →
      ∀ byte ∈ (p.locate rm).bytes w, byte ∈ p.operandWrites i := by
    intro w extent result byte member
    rw [operand extent] at member
    rw [Cpu.operandWrites, if_pos result]
    exact List.mem_append_left _ member
  have pushed : ∀ byte ∈ pushedBytes p.regs.ss p.regs.sp i.pushes, byte ∈ p.operandWrites i :=
    fun byte member => List.mem_append_right _ member
  have vector : ∀ {e}, i.exception? = some e →
      ∀ byte ∈ Extent.pair.bytes (vectorAddress e.vector), byte ∉ places := by
    intro e raises byte member
    refine outside byte (List.mem_append_right _ (List.mem_append_right _ ?_))
    rwa [raises]
  -- `names` puts the operand of the instruction in the place of `rm`, or refutes the case
  cases i with
  | aluToRm op w operand reg =>
    cases names
    exact .ok (abreast.aluToRm (reads rfl) fun other => writes rfl (bne_iff_ne.2 other))
  | aluToReg op w reg operand =>
    cases names
    exact .ok (abreast.aluToReg (reads rfl))
  | aluImm op w operand value =>
    cases names
    exact .ok (abreast.aluImm value (reads rfl) fun other => writes rfl (bne_iff_ne.2 other))
  | testReg w operand reg =>
    cases names
    refine .ok ?_
    simp only [Cpu.testReg, Cpu.test, h.locate rm, abreast.load (reads rfl), h.regs]
    exact (abreast.setFlags _).spend _
  | testImm w operand value =>
    cases names
    refine .ok ?_
    simp only [Cpu.testImm, Cpu.test, h.locate rm, abreast.load (reads rfl), h.regs]
    exact (abreast.setFlags _).spend _
  | incRm w operand | decRm w operand | complement w operand | negate w operand =>
    cases names
    exact .ok ((abreast.modify _ (reads rfl) (writes rfl rfl)).spend _)
  | shift op w operand count =>
    cases names
    have counts : c.shiftCount count = p.shiftCount count := by
      cases count <;> simp only [Cpu.shiftCount, h.regs]
    refine .ok ?_
    simp only [Cpu.shift, counts]
    exact (abreast.modify _ (reads rfl) (writes rfl rfl)).spend _
  | mul signed w operand =>
    cases names
    exact .ok (abreast.mul (reads rfl))
  | div signed w operand =>
    cases names
    exact abreast.div (reads rfl) (vector rfl) pushed
  | mulImm reg operand value =>
    cases names
    refine .ok ?_
    simp only [Cpu.mulImm, h.locate rm, abreast.load (reads rfl), h.regs]
    exact ((abreast.setFlags _).setReg _ _ _).spend _
  | movToRm w operand reg =>
    cases names
    refine .ok ?_
    simp only [Cpu.movToRm, h.locate rm, h.regs]
    exact (abreast.store _ (writes rfl rfl)).spend _
  | movToReg w reg operand =>
    cases names
    refine .ok ?_
    simp only [Cpu.movToReg, h.locate rm, abreast.load (reads rfl)]
    exact (abreast.setReg _ _ _).spend _
  | movImm w operand value =>
    cases names
    refine .ok ?_
    simp only [Cpu.movImm, h.locate rm]
    exact (abreast.store _ (writes rfl rfl)).spend _
  | movFromSeg operand seg =>
    cases names
    refine .ok ?_
    simp only [Cpu.movFromSeg, h.locate rm, h.regs]
    exact (abreast.store _ (writes rfl rfl)).spend _
  | movToSeg seg operand =>
    cases names
    refine .ok ?_
    simp only [Cpu.movToSeg, h.locate rm, abreast.load (reads rfl)]
    exact (abreast.withRegs fun regs => regs.setSeg seg _).spend _
  | lea reg m =>
    refine .ok ?_
    simp only [Cpu.lea, h.regs]
    exact (abreast.setReg _ _ _).spend _
  | loadFar seg reg m =>
    cases names
    refine .ok ?_
    simp only [Cpu.loadFar, h.address m, abreast.readFar (pair rfl rfl)]
    exact ((abreast.setReg _ _ _).withRegs fun regs => regs.setSeg seg _).spend _
  | xchgRm w operand reg =>
    cases names
    exact .ok (abreast.xchgRm (reads rfl) (writes rfl rfl))
  | pushRm operand =>
    cases names
    exact .ok (abreast.pushRm (reads rfl) pushed)
  | popRm operand =>
    cases names
    refine .ok (abreast.popRm (fun byte member => outside byte ?_) (writes rfl rfl))
    exact List.mem_append_right _ (List.mem_append_left _ member)
  | jumpRm operand =>
    cases names
    refine .ok ?_
    simp only [Cpu.jumpRm, h.locate rm, abreast.load (reads rfl)]
    exact (abreast.setIp _).spend _
  | callRm operand =>
    cases names
    exact .ok (abreast.callRm (reads rfl) pushed)
  | jumpFarMem m =>
    cases names
    refine .ok ?_
    simp only [Cpu.jumpFarMem, h.address m, abreast.readFar (pair rfl rfl)]
    exact (abreast.jumpFar _ _).spend _
  | callFarMem m =>
    cases names
    refine .ok ?_
    simp only [Cpu.callFarMem, h.address m, abreast.readFar (pair rfl rfl)]
    exact (abreast.farCall _ _ pushed).spend _
  | bound reg m =>
    cases names
    exact abreast.bound (pair rfl rfl) (vector rfl) pushed
  | escape operand => exact abreast.escape (vector rfl) pushed
  | _ => cases names

end Alike
end RealMode
