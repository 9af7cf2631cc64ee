import RealMode.Cpu

/-!
Operands of a running instruction. A ModRM operand is located once, before the instruction changes
anything, and read and written at that place from then on. The stack grows down in words.
-/

namespace RealMode

/-- Where an operand is: a register index or a physical address. -/
inductive Location where
  | reg (index : Fin 8)
  | mem (address : UInt32)
  deriving DecidableEq

namespace Cpu

variable {β : Type}

/-- Physical address of a memory operand. A segment prefix wins over the operand's own segment. -/
def address (c : Cpu β) (m : MemOperand) : UInt32 :=
  physical (c.regs.seg (c.prefixes.segment.getD m.segment)) (m.offset c.regs)

def locate (c : Cpu β) : Operand → Location
  | .reg i => .reg i
  | .mem m => .mem (c.address m)

/-- An offset in DS, or in the segment that a prefix names. -/
def dataAddress (c : Cpu β) (offset : UInt16) : UInt32 :=
  physical (c.regs.seg (c.prefixes.segment.getD .ds)) offset

/-- An offset in ES: no prefix changes the destination of a string instruction. -/
def extraAddress (c : Cpu β) (offset : UInt16) : UInt32 :=
  physical c.regs.es offset

variable [Bus β]

def load (c : Cpu β) (w : Width) : Location → UInt16
  | .reg i => c.regs.read w i
  | .mem address => Bus.read c.bus w address

def storeMem (c : Cpu β) (w : Width) (address : UInt32) (value : UInt16) : Cpu β :=
  { c with bus := Bus.write c.bus w address value }

def store (c : Cpu β) (w : Width) (l : Location) (value : UInt16) : Cpu β :=
  match l with
  | .reg i => c.setReg w i value
  | .mem address => c.storeMem w address value

def push (c : Cpu β) (value : UInt16) : Cpu β :=
  let sp := c.regs.sp - 2
  { c with
    regs := { c.regs with sp }
    bus := Bus.writeWord c.bus (physical c.regs.ss sp) value }

def top (c : Cpu β) : UInt16 :=
  Bus.readWord c.bus (physical c.regs.ss c.regs.sp)

def release (c : Cpu β) (bytes : UInt16) : Cpu β :=
  { c with regs := { c.regs with sp := c.regs.sp + bytes } }

def pop (c : Cpu β) : UInt16 × Cpu β :=
  (c.top, c.release 2)

end Cpu
end RealMode
