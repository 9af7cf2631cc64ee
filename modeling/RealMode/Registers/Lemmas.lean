import RealMode.Registers
import RealMode.Width.Lemmas

/-!
Registers as functions of their names: each write shows at its own name and nowhere else. Byte
registers share words, so that a write to one half keeps the other.
-/

namespace RealMode

/-- The word register that holds a register of this width. -/
def Width.holder (w : Width) (i : Fin 8) : Reg16 :=
  match w with
  | .byte => (Reg8.ofIndex i).whole
  | .word => .ofIndex i

namespace Registers

theorem get_set (s : Registers) (r q : Reg16) (value : UInt16) :
    (s.set r value).get q = if q = r then value else s.get q := by
  cases r <;> cases q <;> rfl

theorem seg_setSeg (s : Registers) (r q : SegReg) (value : UInt16) :
    (s.setSeg r value).seg q = if q = r then value else s.seg q := by
  cases r <;> cases q <;> rfl

@[simp] theorem seg_set (s : Registers) (r : Reg16) (q : SegReg) (value : UInt16) :
    (s.set r value).seg q = s.seg q := by
  cases r <;> rfl

@[simp] theorem get_setSeg (s : Registers) (r : SegReg) (q : Reg16) (value : UInt16) :
    (s.setSeg r value).get q = s.get q := by
  cases r <;> rfl

theorem ip_flags_set (s : Registers) (r : Reg16) (value : UInt16) :
    (s.set r value).ip = s.ip ∧ (s.set r value).flags = s.flags := by
  cases r <;> exact ⟨rfl, rfl⟩

theorem get8_set8 (s : Registers) (r q : Reg8) (value : UInt8) :
    (s.set8 r value).get8 q = if q = r then value else s.get8 q := by
  cases r <;> cases q <;> simp [set8, get8, Reg8.isHigh, Reg8.whole, get_set]

section

variable (s : Registers) (w : Width) (i : Fin 8) (value : UInt16)

@[simp] theorem read_write : (s.write w i value).read w i = w.trim value := by
  cases w with
  | byte =>
    rw [write, read, get8_set8, if_pos rfl]
    exact Width.toUInt16_lowByte value
  | word =>
    rw [write, read, get_set, if_pos rfl]
    exact (Width.trim_word value).symm

theorem read_write_of_ne {j : Fin 8} (other : j ≠ i) :
    (s.write w i value).read w j = s.read w j := by
  cases w with
  | byte =>
    have names : Reg8.ofIndex j ≠ Reg8.ofIndex i := by
      revert i j
      decide
    rw [read, write, get8_set8, if_neg names, read]
  | word =>
    have names : Reg16.ofIndex j ≠ Reg16.ofIndex i := by
      revert i j
      decide
    rw [read, write, get_set, if_neg names, read]

theorem get_write (r : Reg16) (other : r ≠ w.holder i) : (s.write w i value).get r = s.get r := by
  cases w with
  | byte =>
    rw [write, set8, get_set]
    exact if_neg other
  | word =>
    rw [write, get_set]
    exact if_neg other

theorem seg_write (r : SegReg) : (s.write w i value).seg r = s.seg r := by
  cases w with
  | byte => exact seg_set _ _ _ _
  | word => exact seg_set _ _ _ _

theorem ip_flags_write :
    (s.write w i value).ip = s.ip ∧ (s.write w i value).flags = s.flags := by
  cases w with
  | byte => exact ip_flags_set _ _ _
  | word => exact ip_flags_set _ _ _

end

theorem read_congr {s t : Registers} {w : Width} {i : Fin 8}
    (same : t.get (w.holder i) = s.get (w.holder i)) : t.read w i = s.read w i := by
  cases w with
  | byte => exact congrArg UInt8.toUInt16 (by rw [get8, get8]; exact same ▸ rfl)
  | word => exact same

end Registers
end RealMode
