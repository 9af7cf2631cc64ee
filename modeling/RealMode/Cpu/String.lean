import RealMode.Cpu.Operand
import RealMode.Instr

/-!
String instructions. One element is handled at a time; under a repeat prefix CX counts the elements
and the instruction pointer goes back to the opcode, so that every element is a fetch cycle of its
own, between which an interrupt may be accepted.
-/

namespace RealMode
namespace StringOp

/-- Comparisons may end a repetition early. -/
def compares : StringOp → Bool
  | cmps | scas => true
  | movs | lods | stos | ins | outs => false

/-- Clocks for one element, repeated or on its own. -/
def clocks (repeated : Bool) : StringOp → Nat
  | movs => if repeated then 17 else 18
  | cmps => 22
  | scas => 15
  | lods => if repeated then 13 else 12
  | stos => if repeated then 10 else 11
  | ins | outs => 14

end StringOp

namespace Cpu

variable {β : Type}

def stringDelta (c : Cpu β) (w : Width) : UInt16 :=
  if c.regs.flags.direction then -w.bytes else w.bytes

def advanceSi (c : Cpu β) (w : Width) : Cpu β :=
  { c with regs := { c.regs with si := c.regs.si + c.stringDelta w } }

def advanceDi (c : Cpu β) (w : Width) : Cpu β :=
  { c with regs := { c.regs with di := c.regs.di + c.stringDelta w } }

variable [Bus β]

def source (c : Cpu β) (w : Width) : UInt16 :=
  Bus.read c.bus w (c.dataAddress c.regs.si)

def destination (c : Cpu β) (w : Width) : UInt16 :=
  Bus.read c.bus w (c.extraAddress c.regs.di)

def setDestination (c : Cpu β) (w : Width) (value : UInt16) : Cpu β :=
  c.storeMem w (c.extraAddress c.regs.di) value

/-- A comparison leaves the flags of a subtraction and drops the difference. -/
def compare (c : Cpu β) (w : Width) (a b : UInt16) : Cpu β :=
  c.setFlags (c.regs.flags.sub w a b false).2

def stringElement (c : Cpu β) (op : StringOp) (w : Width) : Cpu β :=
  match op with
  | .movs => ((c.setDestination w (c.source w)).advanceSi w).advanceDi w
  | .cmps => ((c.compare w (c.source w) (c.destination w)).advanceSi w).advanceDi w
  | .scas => (c.compare w (c.regs.read w accumulator) (c.destination w)).advanceDi w
  | .lods => (c.setReg w accumulator (c.source w)).advanceSi w
  | .stos => (c.setDestination w (c.regs.read w accumulator)).advanceDi w
  | .ins =>
    let (value, bus) := Bus.input c.bus w c.regs.dx
    ({ c with bus }.setDestination w value).advanceDi w
  | .outs => { c with bus := Bus.output c.bus w c.regs.dx (c.source w) }.advanceSi w

def endRepeat (c : Cpu β) : Cpu β :=
  { c with prefixes := { c.prefixes with rep := none } }

/-- Goes back to the opcode, which is one byte long, with the prefixes still in force. -/
def rewind (c : Cpu β) : Cpu β :=
  { c with
    regs := { c.regs with ip := c.regs.ip - 1 }
    prefixes := { c.prefixes with keep := true } }

/-- One element under a repeat prefix. With CX at zero there is none. -/
def repeatElement (c : Cpu β) (op : StringOp) (w : Width) (mode : RepeatMode) : Cpu β :=
  if c.regs.cx = 0 then c.endRepeat
  else
    let c := c.stringElement op w
    let c := { c with regs := { c.regs with cx := c.regs.cx - 1 } }
    if c.regs.cx = 0 ∨ (op.compares ∧ mode.stopsOn c.regs.flags.zero) then c.endRepeat
    else c.rewind

def string (c : Cpu β) (op : StringOp) (w : Width) : Cpu β :=
  match c.prefixes.rep with
  | none => (c.stringElement op w).spend (op.clocks false)
  | some mode => (c.repeatElement op w mode).spend (op.clocks true)

end Cpu
end RealMode
