import RealMode.Bus.Flat
import RealMode.Product.Lemmas
import RealMode.Proofs.Interrupt.Events
import RealMode.Proofs.Interrupt.Frame

/-!
Multiplication and division as whole instructions. Products have double the width of their operands
and are exact. A division either gives quotient and remainder or enters the handler of vector 0 with
everything but the stack as it was.
-/

namespace RealMode

/-- F6 for bytes and F7 for words. -/
def unaryOpcode : Width → UInt8
  | .byte => 0xF6
  | .word => 0xF7

theorem ofByte_unaryOpcode (v : Variant) (w : Width) :
    Opcode.ofByte v (unaryOpcode w) = .unary w := by
  cases v <;> cases w <;> decide

/-- In the reg field, MUL and IMUL. -/
def mulField (signed : Bool) : Fin 8 :=
  if signed then ⟨5, by decide⟩ else ⟨4, by decide⟩

/-- In the reg field, DIV and IDIV. -/
def divField (signed : Bool) : Fin 8 :=
  if signed then ⟨7, by decide⟩ else ⟨6, by decide⟩

/-- The same registers but for AX, and for DX if the width is that of words. -/
def Registers.SameBeside (w : Width) (s t : Registers) : Prop :=
  t = { s with ax := t.ax, dx := match w with | .byte => s.dx | .word => t.dx }

namespace Cpu

variable {β : Type} [Bus β]

/-- The ModRM byte of the instruction at CS:IP. -/
def modRM (c : Cpu β) : ModRM :=
  Opcode.modRM (c.codeByte c.window)

/-- The operand that this byte names. -/
def rmOperand (c : Cpu β) : Operand :=
  .ofModRM c.modRM (c.codeByte c.window)

def rmValue (c : Cpu β) (w : Width) : UInt16 :=
  c.load w (c.locate c.rmOperand)

variable {c : Cpu β} {w : Width} {signed : Bool}

theorem fetch_unary (opcode : c.codeByte c.window 0 = unaryOpcode w) :
    c.fetch = Opcode.decodeUnary (c.codeByte c.window) w := by
  rw [fetch, decode, opcode, ofByte_unaryOpcode, Opcode.decode]

theorem dispatch_of_mul (opcode : c.codeByte c.window 0 = unaryOpcode w)
    (field : c.modRM.reg = mulField signed) :
    c.dispatch = .ok (c.fetched.mul signed w c.rmOperand) := by
  have instr : c.fetch.instr = .mul signed w c.rmOperand := by
    rw [modRM] at field
    rw [fetch_unary opcode, Opcode.decodeUnary, field]
    cases signed <;> rfl
  change c.fetched.exec c.fetch.instr = _
  rw [instr, exec]

theorem dispatch_of_div (opcode : c.codeByte c.window 0 = unaryOpcode w)
    (field : c.modRM.reg = divField signed) :
    c.dispatch = c.fetched.div signed w c.rmOperand := by
  have instr : c.fetch.instr = .div signed w c.rmOperand := by
    rw [modRM] at field
    rw [fetch_unary opcode, Opcode.decodeUnary, field]
    cases signed <;> rfl
  change c.fetched.exec c.fetch.instr = _
  rw [instr, exec]

omit [Bus β] in
theorem locate_setIp (c : Cpu β) (ip : UInt16) (rm : Operand) :
    (c.setIp ip).locate rm = c.locate rm := by
  cases rm with
  | reg i => rfl
  | mem m =>
    have segment (r : SegReg) : (c.setIp ip).regs.seg r = c.regs.seg r := by cases r <;> rfl
    have offset : m.offset (c.setIp ip).regs = m.offset c.regs := by
      cases m with
      | direct => rfl
      | based base | displaced base => cases base <;> rfl
    rw [locate, address, segment, offset]
    rfl

theorem load_setIp (c : Cpu β) (ip : UInt16) (w : Width) (rm : Operand) :
    (c.setIp ip).load w ((c.setIp ip).locate rm) = c.load w (c.locate rm) := by
  rw [locate_setIp]
  cases c.locate rm with
  | reg i =>
    cases w with
    | byte => cases h : Reg8.ofIndex i <;> simp only [load, Registers.read, h] <;> rfl
    | word => cases h : Reg16.ofIndex i <;> simp only [load, Registers.read, h] <;> rfl
  | mem => rfl

theorem rmValue_fetched (c : Cpu β) (w : Width) :
    c.fetched.load w (c.fetched.locate c.rmOperand) = c.rmValue w :=
  c.load_setIp _ w _

theorem value_accumulator (s : Registers) (w : Width) (signed : Bool) :
    w.value signed (s.read w accumulator) = w.value signed s.ax := by
  cases w with
  | byte =>
    apply Width.value_congr
    have low : (s.read .byte accumulator).toNat = s.ax.toNat % 256 := toNat_lowByte s.ax
    rw [low]
    exact Nat.mod_mod _ _
  | word => rfl

/-- The product is exact, and carry and overflow say whether its upper half is of use. -/
structure Multiplied (c : Cpu β) (signed : Bool) (w : Width) (d : Cpu β) : Prop where
  product : w.double signed d.regs.dx d.regs.ax =
    w.value signed c.regs.ax * w.value signed (c.rmValue w)
  carry : d.regs.flags.carry =
    if signed then decide (w.double true d.regs.dx d.regs.ax ≠ w.value true d.regs.ax)
    else decide (w.upper d.regs.dx d.regs.ax ≠ 0)
  overflow : d.regs.flags.overflow = d.regs.flags.carry
  others : Registers.SameBeside w
    { c.fetched.regs with
      flags := { c.regs.flags with
        carry := d.regs.flags.carry, overflow := d.regs.flags.overflow } } d.regs
  bus : d.bus = c.bus

/-- Quotient and remainder of the division that cuts toward zero. -/
structure Divided (c : Cpu β) (signed : Bool) (w : Width) (d : Cpu β) : Prop where
  exact : w.value signed d.regs.ax * w.value signed (c.rmValue w) +
      w.value signed (w.upper d.regs.dx d.regs.ax) = w.double signed c.regs.dx c.regs.ax
  less : (w.value signed (w.upper d.regs.dx d.regs.ax)).natAbs <
    (w.value signed (c.rmValue w)).natAbs
  sign : w.value signed (w.upper d.regs.dx d.regs.ax) = 0 ∨
    (w.value signed (w.upper d.regs.dx d.regs.ax)).sign =
      (w.double signed c.regs.dx c.regs.ax).sign
  others : Registers.SameBeside w c.fetched.regs d.regs
  bus : d.bus = c.bus

/-- The divisor is zero, or the quotient is too large for the lower half. -/
def DivideFails (c : Cpu β) (signed : Bool) (w : Width) : Prop :=
  w.value signed (c.rmValue w) = 0 ∨
    ¬ w.Holds signed ((w.double signed c.regs.dx c.regs.ax).tdiv (w.value signed (c.rmValue w)))

/-- The handler of vector 0 is entered. The return address is that of the next instruction. -/
structure DivideFault (c d : Cpu β) : Prop where
  regs : d.regs = { c.regs with
    sp := c.regs.sp - 6
    ip := (Bus.readFar c.bus (vectorAddress 0)).1
    cs := (Bus.readFar c.bus (vectorAddress 0)).2 }
  bus : d.bus =
    Bus.writeWord
      (Bus.writeWord
        (Bus.writeWord c.bus (physical c.regs.ss (c.regs.sp - 2)) c.regs.flags.toWord)
        (physical c.regs.ss (c.regs.sp - 4)) c.regs.cs)
      (physical c.regs.ss (c.regs.sp - 6)) (c.regs.ip + c.fetch.length.toUInt16)

theorem toNat_dividend_word (s : Registers) :
    (dividend s .word).toNat = s.dx.toNat * 0x10000 + s.ax.toNat := by
  have high := s.dx.toNat_lt
  have low := s.ax.toNat_lt
  have shifted : s.dx.toNat <<< 16 % 2 ^ 32 = 2 ^ 16 * s.dx.toNat := by
    rw [Nat.shiftLeft_eq, Nat.mod_eq_of_lt (by omega), Nat.mul_comm]
  rw [dividend, UInt32.toNat_or, UInt32.toNat_shiftLeft, UInt16.toNat_toUInt32,
    UInt16.toNat_toUInt32]
  change s.dx.toNat <<< 16 % 2 ^ 32 ||| s.ax.toNat = _
  rw [shifted, ← Nat.two_pow_add_eq_or_of_lt low]
  omega

theorem toNat_dividend (s : Registers) (w : Width) :
    ((dividend s w).toNat : Int) = w.double false s.dx s.ax := by
  cases w with
  | byte =>
    rw [Width.double, Width.value_word]
    rfl
  | word =>
    rw [toNat_dividend_word, Width.double, Width.value_word]
    omega

theorem signedDividend_dividend (s : Registers) (w : Width) :
    Quotient.signedDividend w (dividend s w) = w.double true s.dx s.ax := by
  cases w with
  | byte =>
    have whole : s.ax.toUInt32.toUInt16 = s.ax := by simp
    rw [Quotient.signedDividend, dividend, whole]
    rfl
  | word =>
    have low := s.ax.toNat_lt
    have number := toNat_dividend_word s
    have pair := BitVec.toInt_eq_toNat_cond (dividend s .word).toBitVec
    have high := BitVec.toInt_eq_toNat_cond s.dx.toBitVec
    change (dividend s .word).toBitVec.toInt = s.dx.toBitVec.toInt * 0x10000 + s.ax.toNat
    rw [pair, high, UInt32.toNat_toBitVec, UInt16.toNat_toBitVec, number]
    split <;> split <;> omega

theorem quotient?_exact (c : Cpu β) (signed : Bool) (w : Width) (rm : Operand) :
    Quotient.Exact w signed (w.double signed c.regs.dx c.regs.ax)
      (w.value signed (c.load w (c.locate rm))) (c.quotient? signed w rm) := by
  cases signed with
  | false =>
    rw [← toNat_dividend]
    exact Quotient.unsigned?_exact _ _ _
  | true =>
    rw [← signedDividend_dividend]
    exact Quotient.signed?_exact _ _ _

/-- What `mul` and `div` leave in DX does not count for bytes. -/
theorem double_kept (w : Width) (signed : Bool) (dx high low : UInt16) :
    w.double signed (match w with | .byte => dx | .word => high) low =
      w.double signed high low := by
  cases w <;> rfl

theorem upper_kept (w : Width) (dx high low : UInt16) :
    w.upper (match w with | .byte => dx | .word => high) low = w.upper high low := by
  cases w <;> rfl

def product (c : Cpu β) (signed : Bool) (w : Width) (rm : Operand) : Product :=
  if signed then Product.signed w (c.regs.read w accumulator) (c.load w (c.locate rm))
  else Product.unsigned w (c.regs.read w accumulator) (c.load w (c.locate rm))

theorem regs_mul (c : Cpu β) (signed : Bool) (w : Width) (rm : Operand) :
    (c.mul signed w rm).regs =
      { c.regs with
        ax := (c.product signed w rm).low
        dx := match w with | .byte => c.regs.dx | .word => (c.product signed w rm).high
        flags := { c.regs.flags with
          carry := (c.product signed w rm).wide, overflow := (c.product signed w rm).wide } } := rfl

theorem multiplied_mul (c : Cpu β) (signed : Bool) (w : Width) :
    Multiplied c signed w (c.fetched.mul signed w c.rmOperand) := by
  obtain ⟨product, wide⟩ := Product.exact w signed (c.fetched.regs.read w accumulator)
    (c.fetched.load w (c.fetched.locate c.rmOperand))
  rw [value_accumulator, rmValue_fetched] at product
  rw [rmValue_fetched] at wide
  refine ⟨?_, ?_, rfl, ?_, rfl⟩
  · rw [regs_mul, double_kept, Cpu.product, rmValue_fetched]
    exact product
  · rw [regs_mul, double_kept, upper_kept, Cpu.product, rmValue_fetched]
    exact wide
  · cases w <;> rfl

theorem value_withQuotient (s : Registers) (w : Width) (signed : Bool) (q : Quotient) :
    w.value signed (withQuotient s w q).ax = w.value signed q.quotient ∧
      w.value signed (w.upper (withQuotient s w q).dx (withQuotient s w q).ax) =
        w.value signed q.remainder := by
  cases w with
  | byte =>
    refine ⟨Width.value_congr _ _ ?_, Width.value_congr _ _ ?_⟩
    · rw [withQuotient, toNat_wordOfBytes, toNat_lowByte]
      exact (Nat.add_mul_mod_self_left _ _ _).trans (Nat.mod_mod _ _)
    · rw [Width.upper, withQuotient, highByte_wordOfBytes, UInt8.toNat_toUInt16, toNat_lowByte]
      exact Nat.mod_mod _ _
  | word => exact ⟨rfl, rfl⟩

theorem divided_withQuotient {q : Quotient} {d : Cpu β}
    (exact : Quotient.Exact w signed (w.double signed c.regs.dx c.regs.ax)
      (w.value signed (c.rmValue w)) (some q))
    (regs : d.regs = withQuotient c.fetched.regs w q) (bus : d.bus = c.bus) :
    Divided c signed w d := by
  obtain ⟨nonzero, -, quotient, remainder⟩ := exact
  obtain ⟨low, high⟩ := value_withQuotient c.fetched.regs w signed q
  rw [← regs, quotient] at low
  rw [← regs, remainder] at high
  refine ⟨?_, ?_, ?_, ?_, bus⟩
  · rw [low, high]
    exact Int.tdiv_mul_add_tmod _ _
  · rw [high, Int.natAbs_tmod]
    exact Nat.mod_lt _ (Int.natAbs_pos.2 nonzero)
  · rw [high, Int.sign_tmod]
    split
    next divides => exact .inl (Int.tmod_eq_zero_of_dvd divides)
    next => exact .inr rfl
  · rw [regs]
    cases w <;> rfl

theorem divideFault_enterInterrupt (c : Cpu β) (clocks : Nat) :
    DivideFault c ((c.fetched.spend clocks).enterInterrupt
      (Bus.readFar c.bus (vectorAddress 0)).swap id) := by
  constructor
  · rw [regs_enterInterrupt]
    rfl
  · rw [bus_enterInterrupt, ← sub_four_two, ← sub_two_two]
    rfl

/-- Products are exact. A division raises vector 0 exactly if there is no quotient or none that
fits, and else it is exact too. -/
theorem multiply_divide (opcode : c.codeByte c.window 0 = unaryOpcode w)
    (handled : c.config.strictVectors = false ∨
      Bus.readFar c.bus (vectorAddress 0) ≠ (0, 0)) :
    (c.modRM.reg = mulField signed → ∃ d, c.dispatch = .ok d ∧ Multiplied c signed w d) ∧
    (c.modRM.reg = divField signed → ∃ d, c.dispatch = .ok d ∧
      (c.DivideFails signed w → DivideFault c d) ∧
      (¬ c.DivideFails signed w → Divided c signed w d)) := by
  constructor
  · intro field
    exact ⟨_, dispatch_of_mul opcode field, c.multiplied_mul signed w⟩
  · intro field
    have exact := c.fetched.quotient?_exact signed w c.rmOperand
    rw [rmValue_fetched] at exact
    rw [dispatch_of_div opcode field, div_eq]
    cases found : c.fetched.quotient? signed w c.rmOperand with
    | none =>
      rw [found] at exact
      have handler : (c.fetched.spend (divClocks signed w c.rmOperand)).handler 0 =
          .ok (Bus.readFar c.bus (vectorAddress 0)).swap := by
        rcases handled with lenient | nonzero
        · exact handler_of_lenient lenient 0
        · exact handler_of_ne_zero nonzero
      refine ⟨_, interrupt_of_handler handler id, ?_, ?_⟩
      · intro _
        exact divideFault_enterInterrupt c _
      · intro fits
        exact absurd exact fits
    | some q =>
      rw [found] at exact
      refine ⟨_, rfl, ?_, ?_⟩
      · rintro (zero | large)
        · exact absurd zero exact.1
        · exact absurd exact.2.1 large
      · intro _
        exact divided_withQuotient exact rfl rfl

end Cpu

/-- At IDIV BX, with the least dividend and the divisor minus one. -/
def leastDividend : Cpu FlatBus where
  regs := { dx := 0x8000, bx := 0xFFFF, ss := 0x1000, sp := 0x100 }
  bus := { memory := (Memory.zero.set 0 0xF7).set 1 0xFB }
  config := .ofRatio .i8086 4 false

/-- The quotient is out of range even for twice the width. -/
theorem multiply_divide_least :
    leastDividend.codeByte leastDividend.window 0 = unaryOpcode .word ∧
      leastDividend.config.strictVectors = false ∧
      leastDividend.modRM.reg = divField true ∧ leastDividend.DivideFails true .word ∧
      ∃ d, leastDividend.dispatch = .ok d ∧ leastDividend.DivideFault d := by
  have opcode : leastDividend.codeByte leastDividend.window 0 = unaryOpcode .word := by
    rw [leastDividend.codeByte_window (by decide)]
    decide
  have second : leastDividend.codeByte leastDividend.window 1 = 0xFB := by
    rw [leastDividend.codeByte_window (by decide)]
    decide
  have modRM : leastDividend.modRM = .ofByte 0xFB := by
    rw [Cpu.modRM, Opcode.modRM, second]
  have field : leastDividend.modRM.reg = divField true := by
    rw [modRM]
    decide
  have divisor : leastDividend.rmValue .word = 0xFFFF := by
    rw [Cpu.rmValue, Cpu.rmOperand, modRM]
    rfl
  have fails : leastDividend.DivideFails true .word := by
    rw [Cpu.DivideFails, divisor]
    decide
  obtain ⟨d, dispatched, fault, -⟩ :=
    (Cpu.multiply_divide opcode (.inl rfl)).2 field
  exact ⟨opcode, rfl, field, fails, d, dispatched, fault fails⟩

end RealMode
