import RealMode.Cpu.Interrupt
import RealMode.Flags.Decimal
import RealMode.Flags.Shift
import RealMode.Instr
import RealMode.Product

/-!
Arithmetic and logic on the operands of an instruction. Every function here does one instruction as
a whole: operands, result, flags and clocks.
-/

namespace RealMode

/-- Clocks of an instruction with a ModRM operand: one figure for registers, and one for memory to
which the address is added. -/
def Operand.cost (rm : Operand) (register memory : Nat) : Nat :=
  if rm.isRegister then register else memory + rm.clocks

namespace Cpu

variable {β : Type} [Bus β]

def aluToRm (c : Cpu β) (op : AluOp) (w : Width) (rm : Operand) (reg : Fin 8) : Cpu β :=
  let l := c.locate rm
  let (result, flags) := c.regs.flags.alu op w (c.load w l) (c.regs.read w reg)
  let c := c.setFlags flags
  match result with
  | some value => (c.store w l value).spend (rm.cost 3 16)
  | none => c.spend (rm.cost 3 9)

def aluToReg (c : Cpu β) (op : AluOp) (w : Width) (reg : Fin 8) (rm : Operand) : Cpu β :=
  let (result, flags) := c.regs.flags.alu op w (c.regs.read w reg) (c.load w (c.locate rm))
  let c := c.setFlags flags
  match result with
  | some value => (c.setReg w reg value).spend (rm.cost 3 9)
  | none => c.spend (rm.cost 3 9)

def aluImm (c : Cpu β) (op : AluOp) (w : Width) (rm : Operand) (value : UInt16) : Cpu β :=
  let l := c.locate rm
  let (result, flags) := c.regs.flags.alu op w (c.load w l) value
  let c := c.setFlags flags
  match result with
  | some value => (c.store w l value).spend (rm.cost 4 17)
  | none => c.spend (rm.cost 4 17)

def aluAcc (c : Cpu β) (op : AluOp) (w : Width) (value : UInt16) : Cpu β :=
  let (result, flags) := c.regs.flags.alu op w (c.regs.read w accumulator) value
  let c := c.setFlags flags
  match result with
  | some value => (c.setReg w accumulator value).spend 4
  | none => c.spend 4

def test (c : Cpu β) (w : Width) (a b : UInt16) : Cpu β :=
  c.setFlags (c.regs.flags.logical w (a &&& b).toUInt32).2

def testReg (c : Cpu β) (w : Width) (rm : Operand) (reg : Fin 8) : Cpu β :=
  (c.test w (c.load w (c.locate rm)) (c.regs.read w reg)).spend (rm.cost 3 9)

def testAcc (c : Cpu β) (w : Width) (value : UInt16) : Cpu β :=
  (c.test w (c.regs.read w accumulator) value).spend 4

def testImm (c : Cpu β) (w : Width) (rm : Operand) (value : UInt16) : Cpu β :=
  (c.test w (c.load w (c.locate rm)) value).spend (rm.cost 5 11)

def modify (c : Cpu β) (w : Width) (l : Location) (f : Flags → UInt16 → UInt16 × Flags) : Cpu β :=
  let (value, flags) := f c.regs.flags (c.load w l)
  (c.setFlags flags).store w l value

def incReg (c : Cpu β) (reg : Fin 8) : Cpu β :=
  (c.modify .word (.reg reg) (·.increment .word)).spend 2

def decReg (c : Cpu β) (reg : Fin 8) : Cpu β :=
  (c.modify .word (.reg reg) (·.decrement .word)).spend 2

def incRm (c : Cpu β) (w : Width) (rm : Operand) : Cpu β :=
  (c.modify w (c.locate rm) (·.increment w)).spend (rm.cost 3 15)

def decRm (c : Cpu β) (w : Width) (rm : Operand) : Cpu β :=
  (c.modify w (c.locate rm) (·.decrement w)).spend (rm.cost 3 15)

def complement (c : Cpu β) (w : Width) (rm : Operand) : Cpu β :=
  (c.modify w (c.locate rm) fun f x => (w.trim (~~~x), f)).spend (rm.cost 3 16)

def negate (c : Cpu β) (w : Width) (rm : Operand) : Cpu β :=
  (c.modify w (c.locate rm) fun f x => f.sub w 0 x false).spend (rm.cost 3 16)

def mulClocks (signed : Bool) (w : Width) (rm : Operand) : Nat :=
  let register := match signed, w with
    | false, .byte => 73
    | false, .word => 125
    | true, .byte => 89
    | true, .word => 141
  rm.cost register (register + 6)

/-- Carry and overflow say together whether the upper half of the product is of use. -/
def mul (c : Cpu β) (signed : Bool) (w : Width) (rm : Operand) : Cpu β :=
  let acc := c.regs.read w accumulator
  let src := c.load w (c.locate rm)
  let p := if signed then Product.signed w acc src else Product.unsigned w acc src
  let regs := { c.regs with
    ax := p.low
    dx := match w with | .byte => c.regs.dx | .word => p.high
    flags := { c.regs.flags with carry := p.wide, overflow := p.wide } }
  { c with regs }.spend (mulClocks signed w rm)

def mulImm (c : Cpu β) (reg : Fin 8) (rm : Operand) (value : UInt16) : Cpu β :=
  let p := Product.signed .word (c.load .word (c.locate rm)) value
  let c := c.setFlags { c.regs.flags with carry := p.wide, overflow := p.wide }
  (c.setReg .word reg p.low).spend (21 + rm.clocks)

def divClocks (signed : Bool) (w : Width) (rm : Operand) : Nat :=
  let register := match signed, w with
    | false, .byte => 85
    | false, .word => 153
    | true, .byte => 106
    | true, .word => 174
  rm.cost register (register + 6)

/-- AX, or DX and AX. -/
def dividend (s : Registers) : Width → UInt32
  | .byte => s.ax.toUInt32
  | .word => s.dx.toUInt32 <<< 16 ||| s.ax.toUInt32

/-- The quotient goes to the lower half of the dividend, the remainder to the upper half. -/
def withQuotient (s : Registers) (w : Width) (q : Quotient) : Registers :=
  match w with
  | .byte => { s with ax := wordOfBytes (lowByte q.quotient) (lowByte q.remainder) }
  | .word => { s with ax := q.quotient, dx := q.remainder }

def div (c : Cpu β) (signed : Bool) (w : Width) (rm : Operand) : Outcome β :=
  let n := dividend c.regs w
  let d := c.load w (c.locate rm)
  let q := if signed then Quotient.signed? w n d else Quotient.unsigned? w n d
  let c := c.spend (divClocks signed w rm)
  match q with
  | some q => .ok { c with regs := withQuotient c.regs w q }
  | none => c.raise Exception.divideError.vector

/-- The count as given; only its low five bits shift. -/
def shiftCount (c : Cpu β) : ShiftCount → UInt8
  | .one => 1
  | .cl => c.regs.get8 .cl
  | .immediate count => count

def shiftClocks (rm : Operand) (source : ShiftCount) (count : UInt8) : Nat :=
  match source with
  | .one => rm.cost 2 15
  | .cl => rm.cost 8 20 + 4 * count.toNat
  | .immediate _ => rm.cost 5 8 + count.toNat

def shift (c : Cpu β) (op : ShiftOp) (w : Width) (rm : Operand) (source : ShiftCount) : Cpu β :=
  let count := c.shiftCount source
  (c.modify w (c.locate rm) fun f x => f.shift op w x (count &&& 0x1F)).spend
    (shiftClocks rm source count)

def decimal (c : Cpu β) (op : DecimalAdjust) : Cpu β :=
  let f := c.regs.flags
  let onAl (r : UInt8 × Flags) : Registers := { c.regs.withAl r.1 with flags := r.2 }
  let onAx (r : UInt16 × Flags) : Registers := { c.regs with ax := r.1, flags := r.2 }
  let regs := match op with
    | .daa => onAl (f.daa c.regs.al)
    | .das => onAl (f.das c.regs.al)
    | .aaa => onAx (f.aaa c.regs.ax)
    | .aas => onAx (f.aas c.regs.ax)
  { c with regs }.spend 4

def aam (c : Cpu β) (base : UInt8) : Outcome β :=
  let c := c.spend 83
  match c.regs.flags.aam c.regs.al base with
  | some (ax, flags) => .ok { c with regs := { c.regs with ax, flags } }
  | none => c.raise Exception.divideError.vector

def aad (c : Cpu β) (base : UInt8) : Cpu β :=
  let (ax, flags) := c.regs.flags.aad c.regs.ax base
  { c with regs := { c.regs with ax, flags } }.spend 60

def cbw (c : Cpu β) : Cpu β :=
  { c with regs := { c.regs with ax := signExtend c.regs.al } }.spend 2

def cwd (c : Cpu β) : Cpu β :=
  let dx := if c.regs.ax &&& 0x8000 != 0 then 0xFFFF else 0
  { c with regs := { c.regs with dx } }.spend 5

def salc (c : Cpu β) : Cpu β :=
  { c with regs := c.regs.withAl (if c.regs.flags.carry then 0xFF else 0) }.spend 4

end Cpu
end RealMode
