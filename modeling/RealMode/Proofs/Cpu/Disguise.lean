import RealMode.Proofs.Flags.Trap
import RealMode.Proofs.Interrupt.StepCases
import RealMode.Proofs.String.Elements

/-!
What instructions do not look at. Nearly all of them look neither at the trap flag nor at the
variant of the processor: a processor in disguise, which differs in these two only, does the same
and ends in the same disguise. The exceptions are the instructions that push or pop the packed
flags, on their own account or to enter a handler, and those that one variant does not know.
-/

namespace RealMode

namespace Instr

/-- Whether all flags pass through the stack in one word. -/
def packsFlags : Instr → Bool
  | .pushFlags | .popFlags | .iret => true
  | _ => false

/-- Whether the variants do not agree on it. -/
def differs : Instr → Bool
  | .unknown | .escape _ => true
  | _ => false

end Instr

namespace Registers

def withTrap (s : Registers) (trap : Bool) : Registers :=
  { s with flags := s.flags.withTrap trap }

variable (s : Registers) (trap : Bool)

@[simp] theorem flags_withTrap : (s.withTrap trap).flags = s.flags.withTrap trap := rfl

@[simp] theorem get_withTrap (r : Reg16) : (s.withTrap trap).get r = s.get r := by
  cases r <;> rfl

@[simp] theorem seg_withTrap (r : SegReg) : (s.withTrap trap).seg r = s.seg r := by
  cases r <;> rfl

@[simp] theorem get8_withTrap (r : Reg8) : (s.withTrap trap).get8 r = s.get8 r := by
  simp only [get8, get_withTrap]

@[simp] theorem read_withTrap (w : Width) (i : Fin 8) :
    (s.withTrap trap).read w i = s.read w i := by
  cases w <;> simp only [read, get8_withTrap, get_withTrap]

@[simp] theorem set_withTrap (r : Reg16) (value : UInt16) :
    (s.withTrap trap).set r value = (s.set r value).withTrap trap := by
  cases r <;> rfl

@[simp] theorem set8_withTrap (r : Reg8) (value : UInt8) :
    (s.withTrap trap).set8 r value = (s.set8 r value).withTrap trap := by
  simp only [set8, get_withTrap, set_withTrap]

@[simp] theorem setSeg_withTrap (r : SegReg) (value : UInt16) :
    (s.withTrap trap).setSeg r value = (s.setSeg r value).withTrap trap := by
  cases r <;> rfl

@[simp] theorem write_withTrap (w : Width) (i : Fin 8) (value : UInt16) :
    (s.withTrap trap).write w i value = (s.write w i value).withTrap trap := by
  cases w <;> simp only [write, set8_withTrap, set_withTrap]

end Registers

namespace MemOperand

@[simp] theorem offset_withTrap (m : MemOperand) (s : Registers) (trap : Bool) :
    m.offset (s.withTrap trap) = m.offset s := by
  have base : ∀ b : AddressBase, b.offset (s.withTrap trap) = b.offset s := by
    intro b
    cases b <;> rfl
  cases m <;> simp only [offset, base]

end MemOperand

namespace Cpu

variable {β : Type}

/-- The same processor but for the trap flag and the variant. -/
def disguise (c : Cpu β) (trap : Bool) (variant : Variant) : Cpu β :=
  { c with regs := c.regs.withTrap trap, config := { c.config with variant } }

end Cpu

def Outcome.disguise {β : Type} (o : Outcome β) (trap : Bool) (variant : Variant) : Outcome β :=
  ⟨o.cpu.disguise trap variant, o.missing⟩

namespace Cpu

variable {β : Type} (c : Cpu β) (trap : Bool) (variant : Variant)

@[simp] theorem regs_disguise : (c.disguise trap variant).regs = c.regs.withTrap trap := rfl

@[simp] theorem bus_disguise : (c.disguise trap variant).bus = c.bus := rfl

@[simp] theorem prefixes_disguise : (c.disguise trap variant).prefixes = c.prefixes := rfl

@[simp] theorem ok_disguise :
    (Outcome.ok c).disguise trap variant = .ok (c.disguise trap variant) := rfl

@[simp] theorem setReg_disguise (w : Width) (i : Fin 8) (value : UInt16) :
    (c.disguise trap variant).setReg w i value = (c.setReg w i value).disguise trap variant := by
  simp only [setReg, regs_disguise, Registers.write_withTrap]
  rfl

@[simp] theorem setFlags_disguise (f : Flags) :
    (c.disguise trap variant).setFlags (f.withTrap trap) =
      (c.setFlags f).disguise trap variant := rfl

@[simp] theorem setIp_disguise (ip : UInt16) :
    (c.disguise trap variant).setIp ip = (c.setIp ip).disguise trap variant := rfl

@[simp] theorem spend_disguise (clocks : Nat) :
    (c.disguise trap variant).spend clocks = (c.spend clocks).disguise trap variant := rfl

@[simp] theorem address_disguise (m : MemOperand) :
    (c.disguise trap variant).address m = c.address m := by
  simp [address]

@[simp] theorem locate_disguise (rm : Operand) :
    (c.disguise trap variant).locate rm = c.locate rm := by
  cases rm <;> simp [locate]

@[simp] theorem dataAddress_disguise (offset : UInt16) :
    (c.disguise trap variant).dataAddress offset = c.dataAddress offset := by
  simp [dataAddress]

variable [Bus β]

@[simp] theorem load_disguise (w : Width) (l : Location) :
    (c.disguise trap variant).load w l = c.load w l := by
  cases l <;> simp [load]

@[simp] theorem storeMem_disguise (w : Width) (address : UInt32) (value : UInt16) :
    (c.disguise trap variant).storeMem w address value =
      (c.storeMem w address value).disguise trap variant := rfl

@[simp] theorem store_disguise (w : Width) (l : Location) (value : UInt16) :
    (c.disguise trap variant).store w l value = (c.store w l value).disguise trap variant := by
  cases l <;> simp [store]

@[simp] theorem push_disguise (value : UInt16) :
    (c.disguise trap variant).push value = (c.push value).disguise trap variant := rfl

@[simp] theorem pop_disguise :
    (c.disguise trap variant).pop = (c.pop.1, c.pop.2.disguise trap variant) := rfl

theorem modify_disguise (w : Width) (l : Location) {f : Flags → UInt16 → UInt16 × Flags}
    (ignores : Flags.IgnoresTrap f) :
    (c.disguise trap variant).modify w l f = (c.modify w l f).disguise trap variant := by
  have same : f (c.regs.flags.withTrap trap) (c.load w l) =
      Flags.mapTrap trap (f c.regs.flags (c.load w l)) := ignores _ trap _
  simp only [modify, regs_disguise, load_disguise, Registers.flags_withTrap, same,
    setFlags_disguise, store_disguise]

@[simp] theorem popInto_disguise (r : Reg16) :
    (c.disguise trap variant).popInto r = (c.popInto r).disguise trap variant := by
  cases r <;> rfl

theorem foldl_push_disguise (values : List UInt16) :
    values.foldl push (c.disguise trap variant) =
      (values.foldl push c).disguise trap variant := by
  induction values generalizing c with
  | nil => rfl
  | cons value values ih => exact ih (c.push value)

theorem foldl_popInto_disguise (rs : List Reg16) :
    rs.foldl popInto (c.disguise trap variant) =
      (rs.foldl popInto c).disguise trap variant := by
  induction rs generalizing c with
  | nil => rfl
  | cons r rs ih =>
      rw [List.foldl_cons, popInto_disguise]
      exact ih (c.popInto r)

theorem copyDisplay_disguise (n : Nat) :
    (c.disguise trap variant).copyDisplay n = (c.copyDisplay n).disguise trap variant := by
  induction n generalizing c with
  | zero => rfl
  | succ n ih =>
      rw [copyDisplay, copyDisplay, ← ih]
      rfl

theorem popAll_disguise :
    (c.disguise trap variant).popAll = c.popAll.disguise trap variant := by
  have lower := c.foldl_popInto_disguise trap variant [.di, .si, .bp]
  have upper := (([Reg16.di, .si, .bp].foldl popInto c).release 2).foldl_popInto_disguise trap
    variant [.bx, .dx, .cx, .ax]
  rw [popAll, lower]
  exact congrArg (·.spend 19) upper

theorem enter_disguise (size : UInt16) (level : UInt8) :
    (c.disguise trap variant).enter size level =
      (c.enter size level).disguise trap variant := by
  simp only [enter, regs_disguise, push_disguise, copyDisplay_disguise]
  split <;> rfl

omit [Bus β] in
@[simp] theorem jumpIf_disguise (taken : Bool) (displacement : UInt16) :
    (c.disguise trap variant).jumpIf taken displacement =
      (c.jumpIf taken displacement).disguise trap variant := by
  cases taken <;> rfl

omit [Bus β] in
theorem loop_disguise (test : LoopTest) (displacement : UInt8) :
    (c.disguise trap variant).loop test displacement =
      (c.loop test displacement).disguise trap variant := by
  have taken : loopTaken { (c.disguise trap variant).regs with
      cx := (c.disguise trap variant).regs.cx - 1 } test =
        loopTaken { c.regs with cx := c.regs.cx - 1 } test := by
    cases test <;> rfl
  simp only [loop, taken]
  split <;> rfl

omit [Bus β] in
@[simp] theorem portNumber_disguise (port : PortNumber) :
    (c.disguise trap variant).portNumber port = c.portNumber port := by
  cases port <;> rfl

omit [Bus β] in
@[simp] theorem shiftCount_disguise (source : ShiftCount) :
    (c.disguise trap variant).shiftCount source = c.shiftCount source := by
  cases source <;> simp [shiftCount]

theorem stringElement_disguise (op : StringOp) (w : Width) :
    (c.disguise trap variant).stringElement op w =
      (c.stringElement op w).disguise trap variant := by
  cases op <;> simp [stringElement, source, destination, setDestination, compare] <;> rfl

theorem countedElement_disguise (op : StringOp) (w : Width) :
    (c.disguise trap variant).countedElement op w =
      (c.countedElement op w).disguise trap variant := by
  rw [countedElement, stringElement_disguise]
  rfl

theorem repeatElement_disguise (op : StringOp) (w : Width) (mode : RepeatMode) :
    (c.disguise trap variant).repeatElement op w mode =
      (c.repeatElement op w mode).disguise trap variant := by
  have counted := c.countedElement_disguise trap variant op w
  by_cases none : c.regs.cx = 0
  · rw [repeatElement_of_zero none, repeatElement_of_zero (c := c.disguise trap variant) none]
    rfl
  · by_cases ends : (c.countedElement op w).repeatEnds op mode
    · rw [repeatElement_of_ends none ends,
        repeatElement_of_ends (c := c.disguise trap variant) none (counted ▸ ends), counted]
      rfl
    · rw [repeatElement_of_not_ends none ends,
        repeatElement_of_not_ends (c := c.disguise trap variant) none (counted ▸ ends), counted]
      rfl

theorem string_disguise (op : StringOp) (w : Width) :
    (c.disguise trap variant).string op w = (c.string op w).disguise trap variant := by
  simp only [string, prefixes_disguise, stringElement_disguise, repeatElement_disguise]
  split <;> rfl

@[simp] theorem quotient?_disguise (signed : Bool) (w : Width) (rm : Operand) :
    (c.disguise trap variant).quotient? signed w rm = c.quotient? signed w rm := by
  cases w <;> simp [quotient?, dividend] <;> rfl

variable {c}

theorem div_disguise {signed : Bool} {w : Width} {rm : Operand}
    (silent : c.raised? (.div signed w rm) = none) :
    (c.disguise trap variant).div signed w rm = (c.div signed w rm).disguise trap variant := by
  rw [div_eq, div_eq, quotient?_disguise]
  cases quotient : c.quotient? signed w rm with
  | none => exact absurd (Option.isNone_iff_eq_none.2 quotient) (not_of_ite_eq_none silent)
  | some q => cases w <;> rfl

theorem aam_disguise {base : UInt8} (silent : c.raised? (.aam base) = none) :
    (c.disguise trap variant).aam base = (c.aam base).disguise trap variant := by
  have defined : base ≠ 0 := by
    rintro rfl
    cases silent
  simp only [aam, spend_disguise, regs_disguise, Flags.aam, if_neg defined]
  rfl

theorem bound_disguise {reg : Fin 8} {m : MemOperand} (silent : c.raised? (.bound reg m) = none) :
    (c.disguise trap variant).bound reg m = (c.bound reg m).disguise trap variant := by
  rw [bound_of_silent silent]
  simp only [bound, spend_disguise, bus_disguise, address_disguise, regs_disguise,
    Registers.read_withTrap]
  exact if_neg (not_of_ite_eq_none silent)

theorem into_disguise (silent : c.raised? .into = none) :
    (c.disguise trap variant).into = c.into.disguise trap variant := by
  have alsoSilent : (c.disguise trap variant).raised? .into = none := silent
  rw [into_of_silent silent, into_of_silent alsoSilent]
  rfl

theorem unknown_disguise (silent : c.raised? .unknown = none) :
    (c.disguise trap c.config.variant).unknown = c.unknown.disguise trap c.config.variant := by
  have variant := variant_of_unknown silent
  rw [unknown_of_8086 variant, unknown_of_8086 (c := c.disguise trap c.config.variant) variant]
  rfl

theorem escape_disguise {rm : Operand} (silent : c.raised? (.escape rm) = none) :
    (c.disguise trap c.config.variant).escape rm =
      (c.escape rm).disguise trap c.config.variant := by
  have variant := variant_of_escape silent
  rw [escape_of_8086 variant, escape_of_8086 (c := c.disguise trap c.config.variant) variant]
  rfl

/-- What an instruction does does not depend on the disguise. -/
theorem exec_disguise {i : Instr} (unpacked : i.packsFlags = false)
    (agreed : i.differs = true → variant = c.config.variant) (silent : c.raised? i = none) :
    (c.disguise trap variant).exec i = (c.exec i).disguise trap variant := by
  cases i with
  | unknown =>
      obtain rfl := agreed rfl
      exact unknown_disguise trap silent
  | escape rm =>
      obtain rfl := agreed rfl
      exact escape_disguise trap silent
  | aluToRm op w rm reg =>
      simp only [exec, aluToRm, regs_disguise, Registers.flags_withTrap, Registers.read_withTrap,
        locate_disguise, load_disguise, Flags.alu_withTrap, setFlags_disguise, store_disguise]
      split <;> rfl
  | aluToReg op w reg rm =>
      simp only [exec, aluToReg, regs_disguise, Registers.flags_withTrap, Registers.read_withTrap,
        locate_disguise, load_disguise, Flags.alu_withTrap, setFlags_disguise, setReg_disguise]
      split <;> rfl
  | aluImm op w rm value =>
      simp only [exec, aluImm, regs_disguise, Registers.flags_withTrap, locate_disguise,
        load_disguise, Flags.alu_withTrap, setFlags_disguise, store_disguise]
      split <;> rfl
  | aluAcc op w value =>
      simp only [exec, aluAcc, regs_disguise, Registers.flags_withTrap, Registers.read_withTrap,
        Flags.alu_withTrap, setFlags_disguise, setReg_disguise]
      split <;> rfl
  | testReg w rm reg => simp [exec, testReg, test]; rfl
  | testAcc w value => simp [exec, testAcc, test]; rfl
  | testImm w rm value => simp [exec, testImm, test]; rfl
  | incReg reg => simp [exec, incReg, modify_disguise, Flags.ignoresTrap_increment]
  | decReg reg => simp [exec, decReg, modify_disguise, Flags.ignoresTrap_decrement]
  | incRm w rm => simp [exec, incRm, modify_disguise, Flags.ignoresTrap_increment]
  | decRm w rm => simp [exec, decRm, modify_disguise, Flags.ignoresTrap_decrement]
  | complement w rm => simp [exec, complement, modify_disguise, Flags.ignoresTrap_complement]
  | negate w rm => simp [exec, negate, modify_disguise, Flags.ignoresTrap_negate]
  | mul signed w rm => simp [exec, mul]; rfl
  | div signed w rm => exact div_disguise trap variant silent
  | mulImm reg rm value =>
      have flags : ∀ p : Product, (c.disguise trap variant).setFlags
          { c.regs.flags.withTrap trap with carry := p.wide, overflow := p.wide } =
            (c.setFlags { c.regs.flags with carry := p.wide, overflow := p.wide }).disguise trap
              variant := fun _ => rfl
      simp [exec, mulImm, flags]
  | shift op w rm source => simp [exec, shift, modify_disguise, Flags.ignoresTrap_shift]
  | decimal op => cases op <;> rfl
  | aam base => exact aam_disguise trap variant silent
  | aad | cbw | cwd | salc | nop => rfl
  | movToRm w rm reg => simp [exec, movToRm]
  | movToReg w reg rm => simp [exec, movToReg]
  | movImm w rm value => simp [exec, movImm]
  | movRegImm w reg value => simp [exec, movRegImm]
  | movFromSeg rm seg => simp [exec, movFromSeg]
  | movToSeg seg rm => simp [exec, movToSeg]; rfl
  | movAccFrom w offset => simp [exec, movAccFrom]
  | movAccTo w offset => simp [exec, movAccTo]
  | lea reg m => simp [exec, lea]
  | loadFar seg reg m => simp [exec, loadFar]; rfl
  | xchgRm w rm reg => simp [exec, xchgRm]
  | xchgAcc reg => simp [exec, xchgAcc]; rfl
  | xlat => simp [exec, xlat]; rfl
  | lahf => simp [exec, lahf, Flags.lowByte_toWord_withTrap]; rfl
  | sahf => simp [exec, sahf]
  | pushReg reg =>
      simp only [exec, pushReg, regs_disguise, Registers.get_withTrap, push_disguise]
      split <;> rfl
  | popReg reg => simp [exec, popReg]
  | pushSeg seg => simp [exec, pushSeg]
  | popSeg seg => simp [exec, popSeg]; rfl
  | pushRm rm => simp [exec, pushRm]
  | popRm rm => simp [exec, popRm]
  | pushImm value => rfl
  | pushFlags | popFlags | iret => cases unpacked
  | pushAll =>
      simp only [exec, pushAll, foldl_push_disguise, regs_disguise]
      rfl
  | popAll => exact congrArg Outcome.ok (c.popAll_disguise trap variant)
  | enter size level => exact congrArg Outcome.ok (c.enter_disguise trap variant size level)
  | leave => rfl
  | jumpIf code displacement => simp [exec]
  | jumpIfCxZero displacement => simp [exec]; rfl
  | loop test displacement =>
      exact congrArg Outcome.ok (c.loop_disguise trap variant test displacement)
  | jump | jumpFar | call | callFar => rfl
  | jumpRm rm => simp [exec, jumpRm]
  | jumpFarMem m => simp [exec, jumpFarMem]; rfl
  | callRm rm => simp [exec, callRm]; rfl
  | callFarMem m => simp [exec, callFarMem]; rfl
  | ret arguments => cases arguments <;> rfl
  | retFar arguments => cases arguments <;> rfl
  | bound reg m => exact bound_disguise trap variant silent
  | int3 | int => cases silent
  | into => exact into_disguise trap variant silent
  | string op w => exact congrArg Outcome.ok (c.string_disguise trap variant op w)
  | input w port =>
      simp only [exec, input, setReg, regs_disguise, bus_disguise, portNumber_disguise,
        Registers.write_withTrap]
      rfl
  | output w port =>
      simp only [exec, output, regs_disguise, bus_disguise, portNumber_disguise,
        Registers.read_withTrap]
      rfl
  | flag op => cases op <;> rfl
  | hlt | wait | segmentOverride | repeatPrefix | lock => rfl

/-- It keeps the trap flag, in particular. -/
theorem disguise_exec {i : Instr} (unpacked : i.packsFlags = false)
    (silent : c.raised? i = none) :
    (c.exec i).disguise c.regs.flags.trap c.config.variant = c.exec i :=
  (exec_disguise c.regs.flags.trap c.config.variant unpacked (fun _ => rfl) silent).symm

end Cpu
end RealMode
