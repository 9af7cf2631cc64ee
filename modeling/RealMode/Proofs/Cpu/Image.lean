import RealMode.Cpu.Image

/-!
Which images are accepted. Apart from the memory of the bus a processor is not touched when one is
placed.
-/

namespace RealMode

theorem toNat_segmentStart {segment : UInt32} (small : segment.toNat ≤ 0xFFFF) :
    (segment <<< 4).toNat = 16 * segment.toNat := by
  have four : (4 : UInt32).toNat % 32 = 4 := rfl
  rw [UInt32.toNat_shiftLeft, four, Nat.shiftLeft_eq]
  omega

/-- There is room for a program at this segment. -/
structure Fits (segment : UInt32) (program : ByteArray) : Prop where
  inRange : segment ≤ 0xFFFF
  nonempty : program.size ≠ 0
  inside : (segment <<< 4).toNat + program.size ≤ memorySize

namespace Cpu

variable {β : Type} [Bus β] {c d : Cpu β} {segment : UInt32} {program : ByteArray}

theorem loadProgram_eq_ok_iff :
    c.loadProgram segment program = .ok d ↔
      Fits segment program ∧ d = { c with bus := Bus.loadBlock c.bus (segment <<< 4) program } := by
  rw [loadProgram]
  constructor
  · intro done
    split at done
    next => cases done
    next inRange =>
      split at done
      next => cases done
      next nonempty =>
        split at done
        next => cases done
        next inside =>
          cases done
          exact ⟨⟨UInt32.not_lt.1 inRange, nonempty, Nat.not_lt.1 inside⟩, rfl⟩
  · rintro ⟨fits, rfl⟩
    rw [if_neg (UInt32.not_lt.2 fits.inRange), if_neg fits.nonempty,
      if_neg (Nat.not_lt.2 fits.inside)]

theorem loadBootstrapped_eq_ok_iff :
    c.loadBootstrapped segment program = .ok d ↔
      Fits segment program ∧
        d = { c with
          bus := Bus.loadBlock (Bus.loadBlock c.bus (segment <<< 4) program) bootVector
            (bootJump segment.toUInt16) } := by
  rw [loadBootstrapped]
  cases loaded : c.loadProgram segment program with
  | error e =>
      refine ⟨nofun, fun ⟨fits, _⟩ => ?_⟩
      rw [loadProgram_eq_ok_iff.2 ⟨fits, rfl⟩] at loaded
      cases loaded
  | ok placed =>
      obtain ⟨fits, rfl⟩ := loadProgram_eq_ok_iff.1 loaded
      exact ⟨fun done => ⟨fits, (Except.ok.inj done).symm⟩, fun h => congrArg Except.ok h.2.symm⟩

theorem eq_of_loadBios {image : ByteArray} (done : c.loadBios image = .ok d) :
    d = { c with bus := Bus.loadBlock c.bus (memorySize - image.size).toUInt32 image } := by
  rw [loadBios] at done
  split at done
  · cases done
  · split at done <;> cases done
    rfl

end Cpu
end RealMode
