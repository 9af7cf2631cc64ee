import RealMode.Registers

/-!
The byte that names the operands of an instruction, and the operands it names. A memory operand is
one of eight sums of base and index registers, with or without a displacement, or an address of its
own. Its offset and its cost in clocks depend on nothing else.
-/

namespace RealMode

/-- Three fields of two, three and three bits. -/
structure ModRM where
  mode : Fin 4
  reg : Fin 8
  rm : Fin 8
  deriving DecidableEq

namespace ModRM

def ofByte (b : UInt8) : ModRM where
  mode := lowTwo (b.toNat / 64)
  reg := lowThree (b.toNat / 8)
  rm := lowThree b.toNat

def toByte (m : ModRM) : UInt8 :=
  .ofNat (m.mode.val * 64 + m.reg.val * 8 + m.rm.val)

theorem ofByte_toByte (m : ModRM) : ofByte m.toByte = m := by
  obtain ⟨mode, reg, rm⟩ := m
  revert mode reg rm
  decide +kernel

theorem toByte_ofByte (b : UInt8) : (ofByte b).toByte = b := by
  apply UInt8.toNat_inj.1
  have := b.toNat_lt
  simp only [ofByte, toByte, lowTwo, lowThree, UInt8.toNat_ofNat']
  omega

def isRegister (m : ModRM) : Bool :=
  m.mode.val == 3

def displacementLength (m : ModRM) : Nat :=
  match m.mode with
  | 0 => if m.rm.val = 6 then 2 else 0
  | 1 => 1
  | 2 => 2
  | 3 => 0

def segment (m : ModRM) : SegReg :=
  .ofIndex (lowTwo m.reg.val)

end ModRM

/-- Sums of registers that memory operands start from, in the order of the rm field. -/
inductive AddressBase where
  | bxSi
  | bxDi
  | bpSi
  | bpDi
  | si
  | di
  | bp
  | bx
  deriving DecidableEq

namespace AddressBase

def ofIndex : Fin 8 → AddressBase
  | 0 => bxSi
  | 1 => bxDi
  | 2 => bpSi
  | 3 => bpDi
  | 4 => si
  | 5 => di
  | 6 => bp
  | 7 => bx

def offset (s : Registers) : AddressBase → UInt16
  | bxSi => s.bx + s.si
  | bxDi => s.bx + s.di
  | bpSi => s.bp + s.si
  | bpDi => s.bp + s.di
  | si => s.si
  | di => s.di
  | bp => s.bp
  | bx => s.bx

/-- Addresses built on BP lie in the stack segment. -/
def segment : AddressBase → SegReg
  | bpSi | bpDi | bp => .ss
  | bxSi | bxDi | si | di | bx => .ds

def clocks : AddressBase → Nat
  | bxSi | bpDi => 7
  | bxDi | bpSi => 8
  | si | di | bp | bx => 5

end AddressBase

inductive MemOperand where
  | direct (offset : UInt16)
  | based (base : AddressBase)
  /-- A displacement byte arrives here sign-extended. -/
  | displaced (base : AddressBase) (displacement : UInt16)
  deriving DecidableEq

namespace MemOperand

def offset (s : Registers) : MemOperand → UInt16
  | direct offset => offset
  | based base => base.offset s
  | displaced base displacement => base.offset s + displacement

/-- The segment it lies in unless a prefix names another. -/
def segment : MemOperand → SegReg
  | direct _ => .ds
  | based base | displaced base _ => base.segment

def clocks : MemOperand → Nat
  | direct _ => 6
  | based base => base.clocks
  | displaced base _ => 4 + base.clocks

end MemOperand

inductive Operand where
  | reg (index : Fin 8)
  | mem (operand : MemOperand)
  deriving DecidableEq

namespace Operand

def isRegister : Operand → Bool
  | reg _ => true
  | mem _ => false

/-- Clocks spent on the address; a register has none. -/
def clocks : Operand → Nat
  | reg _ => 0
  | mem m => m.clocks

end Operand
end RealMode
