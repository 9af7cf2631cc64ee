import RealMode.Flags

/-!
Packing the flags into a word loses none of them.
-/

namespace RealMode
namespace Flags

@[simp] theorem ofWord_toWord (f : Flags) : ofWord f.toWord = f := by
  obtain ⟨c, p, a, z, s, t, i, d, o⟩ := f
  revert c p a z s t i d o
  decide +kernel

theorem loadLowByte_toWord (f g : Flags) :
    f.loadLowByte g.toWord.toUInt8 =
      { f with
        carry := g.carry, parity := g.parity, auxCarry := g.auxCarry, zero := g.zero
        sign := g.sign } := by
  have bits : ∀ c p a z s t i d o : Bool,
      let w := (toWord ⟨c, p, a, z, s, t, i, d, o⟩).toUInt8
      (w &&& 0x01 != 0) = c ∧ (w &&& 0x04 != 0) = p ∧ (w &&& 0x10 != 0) = a ∧
        (w &&& 0x40 != 0) = z ∧ (w &&& 0x80 != 0) = s := by decide +kernel
  obtain ⟨c, p, a, z, s, t, i, d, o⟩ := g
  obtain ⟨h1, h2, h3, h4, h5⟩ := bits c p a z s t i d o
  rw [loadLowByte, h1, h2, h3, h4, h5]

end Flags
end RealMode
