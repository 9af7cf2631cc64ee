import RealMode.Flags.Decimal
import RealMode.Flags.Shift

/-!
The trap flag in arithmetic. No operation reads it or changes it, so that it makes no difference
whether it is set before the operation or after it.
-/

namespace RealMode
namespace Flags

def withTrap (f : Flags) (trap : Bool) : Flags :=
  { f with trap }

/-- Sets the trap flag in what an operation has left. -/
abbrev mapTrap {α : Type} (trap : Bool) (r : α × Flags) : α × Flags :=
  (r.1, r.2.withTrap trap)

variable (f : Flags) (trap : Bool) (w : Width)

@[simp] theorem condition_withTrap (code : UInt8) :
    (f.withTrap trap).condition code = f.condition code := rfl

@[simp] theorem loadLowByte_withTrap (value : UInt8) :
    (f.withTrap trap).loadLowByte value = (f.loadLowByte value).withTrap trap := rfl

@[simp] theorem alu_withTrap (op : AluOp) (a b : UInt16) :
    (f.withTrap trap).alu op w a b = mapTrap trap (f.alu op w a b) := by
  cases op <;> rfl

theorem shiftBits_withTrap (op : ShiftOp) (n : Nat) (s : UInt32 × Flags) :
    shiftBits op w n (mapTrap trap s) = mapTrap trap (shiftBits op w n s) := by
  induction n generalizing s with
  | zero => rfl
  | succ n ih =>
      have one : shiftBit op w (mapTrap trap s) = mapTrap trap (shiftBit op w s) := by
        cases op <;> rfl
      simp only [shiftBits, one, ih]

/-- An operation that turns a value into another one, without a look at the trap flag. -/
def IgnoresTrap (op : Flags → UInt16 → UInt16 × Flags) : Prop :=
  ∀ f trap x, op (f.withTrap trap) x = mapTrap trap (op f x)

theorem ignoresTrap_increment : IgnoresTrap (·.increment w) :=
  fun _ _ _ => rfl

theorem ignoresTrap_decrement : IgnoresTrap (·.decrement w) :=
  fun _ _ _ => rfl

theorem ignoresTrap_complement : IgnoresTrap fun f x => (w.trim (~~~x), f) :=
  fun _ _ _ => rfl

theorem ignoresTrap_negate : IgnoresTrap fun f x => f.sub w 0 x false :=
  fun _ _ _ => rfl

theorem ignoresTrap_shift (op : ShiftOp) (count : UInt8) :
    IgnoresTrap fun f x => f.shift op w x count := by
  intro f trap x
  simp only [shift]
  split
  · rfl
  · have bits := shiftBits_withTrap trap w op count.toNat (x.toUInt32 &&& w.mask, f)
    simp only [mapTrap] at bits
    simp only [bits]
    rfl

/-- The low byte of the packed word has no place for it. -/
theorem lowByte_toWord_withTrap : lowByte (f.withTrap trap).toWord = lowByte f.toWord := by
  obtain ⟨c, p, a, z, s, t, i, d, o⟩ := f
  revert trap c p a z s t i d o
  decide +kernel

end Flags
end RealMode
