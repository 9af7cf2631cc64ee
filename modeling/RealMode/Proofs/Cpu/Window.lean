import RealMode.Proofs.Cpu.Fetch
import RealMode.Proofs.Decode.Length

/-!
The fetch window against fetching byte by byte. The window is one piece of memory from the code
address on, while the instruction pointer wraps at the end of its segment, so that the two agree on
every instruction that does not run over this end. Of one that does, the window has the bytes 64 KiB
above those at CS:IP.
-/

namespace RealMode
namespace Cpu

variable {β : Type} [Bus β]

/-- The place of CS:IP when so many bytes of the instruction have been consumed. -/
def addressAt (c : Cpu β) (consumed : Nat) : UInt32 :=
  (c.setIp (c.regs.ip + consumed.toUInt16)).regs.codeAddress

def byteAt (c : Cpu β) (consumed : Nat) : UInt8 :=
  Bus.readByte c.bus (c.addressAt consumed)

/-- The next instruction if each of its bytes is read at CS:IP when it is due. -/
def fetchBytewise (c : Cpu β) : Decoded :=
  decode c.config.variant c.byteAt

omit [Bus β] in
theorem toNat_addressAt (c : Cpu β) (i : Nat) :
    (c.addressAt i).toNat =
      (c.regs.cs.toNat * 16 + (c.regs.ip.toNat + i) % 0x10000) % 0x100000 := by
  have offset : (c.regs.ip + i.toUInt16).toNat = (c.regs.ip.toNat + i) % 0x10000 := by
    rw [UInt16.toNat_add, Nat.toUInt16_eq, UInt16.toNat_ofNat']
    omega
  change (physical c.regs.cs (c.regs.ip + i.toUInt16)).toNat = _
  rw [toNat_physical, offset]

omit [Bus β] in
/-- The window goes on in a straight line where CS:IP goes back to the start of the segment. -/
theorem wrapAddress_linear (c : Cpu β) {i : Nat} (near : i < 0x10000) :
    wrapAddress (c.regs.codeAddress + i.toUInt32) =
      wrapAddress (if c.regs.ip.toNat + i < 0x10000 then c.addressAt i
        else c.addressAt i + 0x10000) := by
  have linear := Memory.toNat_wrapAddress_add c.regs.codeAddress i
  have place := c.toNat_addressAt i
  have start : c.regs.codeAddress.toNat = _ := toNat_physical c.regs.cs c.regs.ip
  have bound := c.regs.ip.toNat_lt
  rw [wrapAddress_eq_iff]
  rw [toNat_wrapAddress_here] at linear
  change _ % 0x100000 = _ % 0x100000
  rw [linear, start]
  split
  next inside =>
    rw [place, Nat.mod_eq_of_lt inside]
    omega
  next beyond =>
    have distance : (0x10000 : UInt32).toNat = 0x10000 := rfl
    rw [UInt32.toNat_add, place, distance]
    omega

theorem length_fetch_le (c : Cpu β) : c.fetch.length ≤ fetchWindow :=
  length_decode_le _ _

variable [MemoryBus β]

theorem fetch_linear (c : Cpu β) :
    c.fetch = decode c.config.variant fun i =>
      (MemoryBus.memory c.bus).get (c.regs.codeAddress + i.toUInt32) := by
  symm
  apply decode_congr
  intro i inside
  exact (c.codeByte_window (Nat.lt_of_lt_of_le inside c.length_fetch_le)).symm

theorem codeByte_eq (c : Cpu β) {i : Nat} (inside : i < fetchWindow) :
    c.codeByte c.window i =
      if c.regs.ip.toNat + i < 0x10000 then c.byteAt i
      else Bus.readByte c.bus (c.addressAt i + 0x10000) := by
  have near : i < 0x10000 := Nat.lt_trans inside (by decide)
  rw [c.codeByte_window inside, Memory.get_congr _ (c.wrapAddress_linear near),
    ← MemoryBus.readByte]
  split
  · rfl
  · rfl

/-- No instruction outgrows the window. Its bytes are those at CS:IP up to the end of the segment
and lie 64 KiB above CS:IP from there on, so that fetching byte by byte gives the same instruction
if it does not run over the end. -/
theorem window_agrees (c : Cpu β) :
    c.fetch.length ≤ fetchWindow ∧
      (∀ i < c.fetch.length, c.codeByte c.window i =
        if c.regs.ip.toNat + i < 0x10000 then c.byteAt i
        else Bus.readByte c.bus (c.addressAt i + 0x10000)) ∧
      (c.regs.ip.toNat + c.fetch.length ≤ 0x10000 → c.fetch = c.fetchBytewise) := by
  have bytes : ∀ i < c.fetch.length, c.codeByte c.window i =
      if c.regs.ip.toNat + i < 0x10000 then c.byteAt i
      else Bus.readByte c.bus (c.addressAt i + 0x10000) := by
    intro i inside
    exact c.codeByte_eq (Nat.lt_of_lt_of_le inside c.length_fetch_le)
  refine ⟨c.length_fetch_le, bytes, ?_⟩
  intro fits
  symm
  apply decode_congr
  intro i inside
  have before : c.regs.ip.toNat + i < 0x10000 := by
    change i < c.fetch.length at inside
    omega
  rw [bytes i inside, if_pos before]

end Cpu

/-- Three bytes from the end of a segment, with a move of a word. -/
def lastMove : Cpu FlatBus where
  regs := { cs := 0xF001, ip := 0xFFFD }
  bus := { memory := ((Memory.zero.set 0xD 0xB8).set 0xE 0x34).set 0xF 0x12 }
  config := .ofRatio .i8086 4 false

/-- It ends with the segment. -/
theorem window_agrees_move :
    lastMove.fetch.length = 3 ∧ lastMove.regs.ip.toNat + lastMove.fetch.length ≤ 0x10000 ∧
      lastMove.fetchBytewise = ⟨.movRegImm .word 0 0x1234, 3⟩ := by
  have fetch : lastMove.fetch = ⟨.movRegImm .word 0 0x1234, 3⟩ := by
    rw [Cpu.fetch_linear]
    decide
  have length : lastMove.fetch.length = 3 := by rw [fetch]
  have fits : lastMove.regs.ip.toNat + lastMove.fetch.length ≤ 0x10000 := by
    rw [length]
    decide
  refine ⟨length, fits, ?_⟩
  rw [← lastMove.window_agrees.2.2 fits, fetch]

/-- At the last byte of a segment, with a move of the byte behind it. -/
def splitMove : Cpu FlatBus where
  regs := { cs := 0xF001, ip := 0xFFFF }
  bus := { memory := ((Memory.zero.set 0xF 0xB0).set 0x10 0x11).set 0xF0010 0x22 }
  config := .ofRatio .i8086 4 false

/-- The second byte of this instruction is not the one that CS:IP has come to. -/
theorem window_leaves_segment :
    splitMove.fetch = ⟨.movRegImm .byte 0 0x11, 2⟩ ∧
      splitMove.codeByte splitMove.window 1 = 0x11 ∧ splitMove.byteAt 1 = 0x22 := by
  refine ⟨?_, ?_, ?_⟩
  · rw [Cpu.fetch_linear]
    decide
  · rw [splitMove.codeByte_window (by decide)]
    decide
  · change splitMove.bus.memory.get (splitMove.addressAt 1) = 0x22
    rw [splitMove, Memory.get_set]
    exact if_pos (by decide)

end RealMode
