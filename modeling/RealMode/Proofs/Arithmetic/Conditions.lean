import RealMode.Bus.Flat
import RealMode.Proofs.Arithmetic.Sums
import RealMode.Proofs.Cpu.Fetch

/-!
The conditions of the jumps behind a comparison. A comparison leaves the flags of a difference.
Whether it borrowed is the unsigned order; the signed order is its sign, unless it overflowed, for
then the sign is the wrong one.
-/

namespace RealMode

namespace Width

variable (w : Width) (a b : UInt16)

/-- What the conditions ask of the operands of a comparison, in the order of their even codes. -/
def Compares : Fin 8 → Prop
  | 0 => ¬ w.Holds true (w.value true a - w.value true b)
  | 1 => w.value false a < w.value false b
  | 2 => w.value false a = w.value false b
  | 3 => w.value false a ≤ w.value false b
  | 4 => (w.operand a - w.operand b).msb = true
  | 5 => (List.range 8).countP ((w.operand a - w.operand b).getLsbD ·) % 2 = 0
  | 6 => w.value true a < w.value true b
  | 7 => w.value true a ≤ w.value true b

instance : DecidablePred (w.Compares a b)
  | 0 => inferInstanceAs (Decidable (¬ _))
  | 1 => inferInstanceAs (Decidable (_ < _))
  | 2 => inferInstanceAs (Decidable (_ = _))
  | 3 => inferInstanceAs (Decidable (_ ≤ _))
  | 4 => inferInstanceAs (Decidable (_ = _))
  | 5 => inferInstanceAs (Decidable (_ = _))
  | 6 => inferInstanceAs (Decidable (_ < _))
  | 7 => inferInstanceAs (Decidable (_ ≤ _))

variable {w a b}

theorem value_false_inj : w.value false a = w.value false b ↔ w.operand a = w.operand b :=
  Int.ofNat_inj.trans BitVec.toNat_inj

theorem value_true_inj : w.value true a = w.value true b ↔ w.operand a = w.operand b := by
  rw [value_signed, value_signed, BitVec.toInt_inj]

variable {x y z : Nat} {r s : Int}

/-- The sign bit of a difference that overflows is not its sign. -/
theorem Reads.lt_iff (first : w.Reads x r) (second : w.Reads y s)
    (difference : (z : Int) = (x - y) % 2 ^ w.bits) :
    r < s ↔ ¬ (2 ^ (w.bits - 1) ≤ z ↔ ¬ w.Holds true (r - s)) := by
  cases w with
  | byte =>
    simp only [Reads, bits, Holds, if_true] at *
    omega
  | word =>
    simp only [Reads, bits, Holds, if_true] at *
    omega

end Width

/-- The code that asks for the even condition `k`, or for its opposite. -/
def conditionCode (k : Fin 8) (negated : Bool) : UInt8 :=
  .ofNat (2 * k.val + negated.toNat)

theorem conditionCode_parts (k : Fin 8) (negated : Bool) :
    (conditionCode k negated).toNat / 2 % 8 = k.val ∧
      ((conditionCode k negated).toNat % 2 == 1) = negated := by
  revert k negated
  decide

namespace Flags

variable {f g : Flags} {w : Width} {a b y : UInt16}

/-- An odd code negates the even code before it. -/
theorem condition_conditionCode (g : Flags) (k : Fin 8) (negated : Bool) :
    g.condition (conditionCode k negated) = (g.condition (conditionCode k false) != negated) := by
  obtain ⟨half, odd⟩ := conditionCode_parts k negated
  obtain ⟨half', even⟩ := conditionCode_parts k false
  simp only [condition, half, odd, half', even, Bool.bne_false]

/-- The result of a comparison, which is dropped, is the difference of the operands. -/
theorem operand_of_subtracts (h : f.Subtracts w a b false (y, g)) :
    w.operand a - w.operand b = w.operand y ∧ y.toNat < 2 ^ w.bits := by
  have number : (y.toNat : Int) =
      ((w.operand a).toNat - (w.operand b).toNat) % ((2 ^ w.bits : Nat) : Int) := by
    simpa [Width.value_unsigned, w.toNat_operand] using h.result
  have fits : y.toNat < 2 ^ w.bits := by
    have positive := Nat.two_pow_pos w.bits
    omega
  have turned : ((2 ^ w.bits - (w.operand b).toNat + (w.operand a).toNat : Nat) : Int) =
      (2 ^ w.bits : Nat) + ((w.operand a).toNat - (w.operand b).toNat) := by
    have below := (w.operand b).isLt
    omega
  refine ⟨BitVec.eq_of_toNat_eq (Int.ofNat_inj.1 ?_), fits⟩
  rw [Width.toNat_operand_of_lt fits, number, BitVec.toNat_sub, Int.natCast_emod, turned,
    Int.add_emod_left]

theorem carry_of_subtracts (h : f.Subtracts w a b false (y, g)) :
    g.carry = true ↔ w.value false a < w.value false b := by
  simpa using h.carry

theorem zero_of_subtracts (h : f.Subtracts w a b false (y, g)) :
    g.zero = true ↔ w.operand a = w.operand b := by
  obtain ⟨difference, fits⟩ := operand_of_subtracts h
  have none : y = 0 ↔ w.operand y = 0#w.bits := by
    rw [← UInt16.toNat_inj, ← BitVec.toNat_inj, Width.toNat_operand_of_lt fits]
    exact Iff.rfl
  rw [h.reports.1, decide_eq_true_iff, none, ← difference, BitVec.sub_eq_iff_eq_add,
    BitVec.zero_add]

theorem overflow_of_subtracts (h : f.Subtracts w a b false (y, g)) :
    g.overflow = true ↔ ¬ w.Holds true (w.value true a - w.value true b) := by
  simpa using h.overflow

theorem less_of_subtracts (h : f.Subtracts w a b false (y, g)) :
    (g.sign != g.overflow) = true ↔ w.value true a < w.value true b := by
  obtain ⟨-, fits⟩ := operand_of_subtracts h
  have number : (y.toNat : Int) =
      ((a.toUInt32 &&& w.mask).toNat - (b.toUInt32 &&& w.mask).toNat) % 2 ^ w.bits := by
    simpa [Width.value_unsigned, w.toNat_and_mask] using h.result
  rw [Width.Reads.lt_iff (w.reads_operand a) (w.reads_operand b) number, bne_iff_ne, ne_eq,
    Bool.eq_iff_iff, overflow_of_subtracts h, h.reports.2.1, BitVec.msb_eq_decide,
    decide_eq_true_iff, Width.toNat_operand_of_lt fits]

theorem parity_of_subtracts (h : f.Subtracts w a b false (y, g)) :
    g.parity = true ↔
      (List.range 8).countP ((w.operand a - w.operand b).getLsbD ·) % 2 = 0 := by
  obtain ⟨difference, fits⟩ := operand_of_subtracts h
  rw [h.reports.2.2, decide_eq_true_iff, difference]
  simp only [BitVec.getLsbD, Width.toNat_operand_of_lt fits]

theorem condition_of_subtracts (h : f.Subtracts w a b false (y, g)) (k : Fin 8) :
    g.condition (conditionCode k false) = true ↔ w.Compares a b k := by
  obtain ⟨half, even⟩ := conditionCode_parts k false
  simp only [condition, half, even, Bool.bne_false]
  match k with
  | 0 => exact overflow_of_subtracts h
  | 1 => exact carry_of_subtracts h
  | 2 => exact (zero_of_subtracts h).trans Width.value_false_inj.symm
  | 3 =>
    change (g.carry || g.zero) = true ↔ w.value false a ≤ w.value false b
    rw [Bool.or_eq_true, carry_of_subtracts h, zero_of_subtracts h, ← Width.value_false_inj,
      Int.le_iff_lt_or_eq]
  | 4 =>
    change g.sign = true ↔ (w.operand a - w.operand b).msb = true
    rw [h.reports.2.1, (operand_of_subtracts h).1]
  | 5 => exact parity_of_subtracts h
  | 6 => exact less_of_subtracts h
  | 7 =>
    change (g.zero || g.sign != g.overflow) = true ↔ w.value true a ≤ w.value true b
    rw [Bool.or_eq_true, less_of_subtracts h, zero_of_subtracts h, ← Width.value_true_inj,
      Int.le_iff_eq_or_lt]

/-- After a comparison an even code holds if the operands compare as it says, and the odd code
behind it if they do not. -/
theorem condition_compare (f : Flags) (w : Width) (a b : UInt16) (k : Fin 8) (negated : Bool) :
    (f.alu .cmp w a b).2.condition (conditionCode k negated) =
      decide (w.Compares a b k ↔ negated = false) := by
  have even : (f.alu .cmp w a b).2.condition (conditionCode k false) = true ↔ w.Compares a b k :=
    condition_of_subtracts (f.subtracts_sub w a b false) k
  rw [Bool.eq_iff_iff, decide_eq_true_iff, ← even, condition_conditionCode]
  cases negated <;> simp

end Flags

namespace Cpu

variable {β : Type} [Bus β]

/-- The byte at CS:IP is the conditional jump of this code. The 8086 has two encodings of it. -/
def AtJump (c : Cpu β) (code : UInt8) : Prop :=
  c.codeByte c.window 0 = 0x70 + code ∨
    c.config.variant = .i8086 ∧ c.codeByte c.window 0 = 0x60 + code

/-- Where the jump leads if it is taken: its displacement counts from the next instruction. -/
def jumpTarget (c : Cpu β) : UInt16 :=
  c.regs.ip + 2 + signExtend (c.codeByte c.window 1)

theorem ofByte_conditionCode (v : Variant) (k : Fin 8) (negated : Bool) :
    Opcode.ofByte v (0x70 + conditionCode k negated) = .jumpIf (conditionCode k negated) ∧
      Opcode.ofByte .i8086 (0x60 + conditionCode k negated) =
        .jumpIf (conditionCode k negated) := by
  cases v <;> revert k negated <;> decide

/-- The jump asks the flags, and is taken if its condition holds. -/
theorem dispatch_of_atJump {c : Cpu β} {k : Fin 8} {negated : Bool}
    (here : c.AtJump (conditionCode k negated)) :
    ∃ d, c.dispatch = .ok d ∧ d.bus = c.bus ∧
      d.regs = { c.regs with
        ip := if c.regs.flags.condition (conditionCode k negated) then c.jumpTarget
          else c.regs.ip + 2 } := by
  have opcode : Opcode.ofByte c.config.variant (c.codeByte c.window 0) =
      .jumpIf (conditionCode k negated) := by
    rcases here with first | ⟨variant, second⟩
    · rw [first]
      exact (ofByte_conditionCode _ k negated).1
    · rw [variant, second]
      exact (ofByte_conditionCode .i8086 k negated).2
  refine ⟨(c.setIp (c.regs.ip + 2)).jumpIf (c.regs.flags.condition (conditionCode k negated))
    (signExtend (c.codeByte c.window 1)), ?_, ?_⟩
  · rw [dispatch, fetch, decode, opcode]
    rfl
  · cases c.regs.flags.condition (conditionCode k negated) with
    | true => exact ⟨rfl, rfl⟩
    | false => exact ⟨rfl, rfl⟩

end Cpu

/-- Behind a comparison, a conditional jump goes to its target if the operands compare as its code
says, and else on to the next instruction. -/
theorem jump_decides_comparison {β : Type} [Bus β] (f : Flags) (w : Width) (a b : UInt16)
    (k : Fin 8) (negated : Bool) :
    ((f.alu .cmp w a b).2.condition (conditionCode k negated) = true ↔
      (w.Compares a b k ↔ negated = false)) ∧
    ∀ c : Cpu β, c.regs.flags = (f.alu .cmp w a b).2 → c.AtJump (conditionCode k negated) →
      ∃ d, c.dispatch = .ok d ∧ d.bus = c.bus ∧
        d.regs = { c.regs with
          ip := if w.Compares a b k ↔ negated = false then c.jumpTarget else c.regs.ip + 2 } := by
  constructor
  · rw [Flags.condition_compare, decide_eq_true_iff]
  · intro c compared here
    obtain ⟨d, done, bus, regs⟩ := Cpu.dispatch_of_atJump here
    refine ⟨d, done, bus, ?_⟩
    simp only [regs, compared, Flags.condition_compare, decide_eq_true_iff]

/-- At JL, two bytes back, behind the comparison of the bytes -128 and 1. -/
def atJumpLess : Cpu FlatBus where
  regs := { cs := 0, ip := 0x10, flags := (Flags.alu {} .cmp .byte 0x80 1).2 }
  bus := { memory := (Memory.zero.set 0x10 0x7C).set 0x11 0xFE }
  config := .ofRatio .i8086 4 false

/-- The difference overflows and its sign bit is clear, and still the jump is taken. -/
theorem jump_decides_comparison_less :
    (atJumpLess.regs.flags.overflow = true ∧ atJumpLess.regs.flags.sign = false) ∧
      atJumpLess.AtJump (conditionCode 6 false) ∧
      ∃ d, atJumpLess.dispatch = .ok d ∧ d.regs = atJumpLess.regs := by
  have opcode : atJumpLess.codeByte atJumpLess.window 0 = 0x7C := by
    rw [atJumpLess.codeByte_window (by decide)]
    decide
  have second : atJumpLess.codeByte atJumpLess.window 1 = 0xFE := by
    rw [atJumpLess.codeByte_window (by decide)]
    decide
  have here : atJumpLess.AtJump (conditionCode 6 false) := .inl opcode
  obtain ⟨d, done, -, regs⟩ :=
    (jump_decides_comparison {} .byte 0x80 1 6 false).2 atJumpLess rfl here
  have back : atJumpLess.jumpTarget = 0x10 := by
    rw [Cpu.jumpTarget, second]
    rfl
  have less : Width.byte.Compares 0x80 1 6 ↔ false = false := by decide
  rw [if_pos less, back] at regs
  exact ⟨by decide, here, d, done, regs⟩

end RealMode
