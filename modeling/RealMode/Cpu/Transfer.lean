import RealMode.Cpu.Arithmetic

/-!
Instructions that move data: between registers and memory, over the stack, and through ports.
-/

namespace RealMode
namespace Cpu

variable {β : Type} [Bus β]

def movToRm (c : Cpu β) (w : Width) (rm : Operand) (reg : Fin 8) : Cpu β :=
  (c.store w (c.locate rm) (c.regs.read w reg)).spend (rm.cost 2 9)

def movToReg (c : Cpu β) (w : Width) (reg : Fin 8) (rm : Operand) : Cpu β :=
  (c.setReg w reg (c.load w (c.locate rm))).spend (rm.cost 2 8)

def movImm (c : Cpu β) (w : Width) (rm : Operand) (value : UInt16) : Cpu β :=
  (c.store w (c.locate rm) value).spend (rm.cost 4 10)

def movRegImm (c : Cpu β) (w : Width) (reg : Fin 8) (value : UInt16) : Cpu β :=
  (c.setReg w reg value).spend 4

def movFromSeg (c : Cpu β) (rm : Operand) (seg : SegReg) : Cpu β :=
  (c.store .word (c.locate rm) (c.regs.seg seg)).spend (rm.cost 2 9)

def movToSeg (c : Cpu β) (seg : SegReg) (rm : Operand) : Cpu β :=
  let value := c.load .word (c.locate rm)
  { c with regs := c.regs.setSeg seg value }.spend (rm.cost 2 8)

def movAccFrom (c : Cpu β) (w : Width) (offset : UInt16) : Cpu β :=
  (c.setReg w accumulator (Bus.read c.bus w (c.dataAddress offset))).spend 10

def movAccTo (c : Cpu β) (w : Width) (offset : UInt16) : Cpu β :=
  (c.storeMem w (c.dataAddress offset) (c.regs.read w accumulator)).spend 10

/-- The offset alone: neither segment nor prefix counts. -/
def lea (c : Cpu β) (reg : Fin 8) (m : MemOperand) : Cpu β :=
  (c.setReg .word reg (m.offset c.regs)).spend (2 + m.clocks)

def loadFar (c : Cpu β) (seg : SegReg) (reg : Fin 8) (m : MemOperand) : Cpu β :=
  let (offset, segment) := Bus.readFar c.bus (c.address m)
  let c := c.setReg .word reg offset
  { c with regs := c.regs.setSeg seg segment }.spend (16 + m.clocks)

def xchgRm (c : Cpu β) (w : Width) (rm : Operand) (reg : Fin 8) : Cpu β :=
  let l := c.locate rm
  let a := c.load w l
  let b := c.regs.read w reg
  ((c.setReg w reg a).store w l b).spend (rm.cost 4 17)

def xchgAcc (c : Cpu β) (reg : Fin 8) : Cpu β :=
  let a := c.regs.ax
  let b := c.regs.read .word reg
  ((c.setReg .word accumulator b).setReg .word reg a).spend 3

/-- Replaces AL by the byte that it selects from the table at BX. -/
def xlat (c : Cpu β) : Cpu β :=
  let address := c.dataAddress (c.regs.bx + c.regs.al.toUInt16)
  { c with regs := c.regs.withAl (Bus.readByte c.bus address) }.spend 11

def lahf (c : Cpu β) : Cpu β :=
  { c with regs := c.regs.set8 .ah (lowByte c.regs.flags.toWord) }.spend 4

def sahf (c : Cpu β) : Cpu β :=
  (c.setFlags (c.regs.flags.loadLowByte (c.regs.get8 .ah))).spend 4

/-- Of SP the word pushed is the one it has afterwards. -/
def pushReg (c : Cpu β) (reg : Fin 8) : Cpu β :=
  let value := match Reg16.ofIndex reg with
    | .sp => c.regs.sp - 2
    | r => c.regs.get r
  (c.push value).spend 11

def popReg (c : Cpu β) (reg : Fin 8) : Cpu β :=
  let (value, c) := c.pop
  (c.setReg .word reg value).spend 8

def pushSeg (c : Cpu β) (seg : SegReg) : Cpu β :=
  (c.push (c.regs.seg seg)).spend 10

def popSeg (c : Cpu β) (seg : SegReg) : Cpu β :=
  let (value, c) := c.pop
  { c with regs := c.regs.setSeg seg value }.spend 8

def pushRm (c : Cpu β) (rm : Operand) : Cpu β :=
  (c.push (c.load .word (c.locate rm))).spend (rm.cost 11 16)

/-- No address depends on SP, so that it does not matter whether it is taken before the word is
popped or after. -/
def popRm (c : Cpu β) (rm : Operand) : Cpu β :=
  let l := c.locate rm
  let (value, c) := c.pop
  (c.store .word l value).spend (rm.cost 8 17)

def pushImm (c : Cpu β) (value : UInt16) : Cpu β :=
  (c.push value).spend 3

def pushFlags (c : Cpu β) : Cpu β :=
  (c.push c.regs.flags.toWord).spend 10

def popFlags (c : Cpu β) : Cpu β :=
  let (word, c) := c.pop
  (c.setFlags (.ofWord word)).spend 8

/-- SP is pushed as it was before. -/
def pushAll (c : Cpu β) : Cpu β :=
  let s := c.regs
  ([s.ax, s.cx, s.dx, s.bx, s.sp, s.bp, s.si, s.di].foldl push c).spend 19

def popInto (c : Cpu β) (r : Reg16) : Cpu β :=
  let (value, c) := c.pop
  { c with regs := c.regs.set r value }

/-- The word in the place of SP is dropped. -/
def popAll (c : Cpu β) : Cpu β :=
  let c := [Reg16.di, .si, .bp].foldl popInto c
  let c := c.release 2
  ([Reg16.bx, .dx, .cx, .ax].foldl popInto c).spend 19

/-- Copies so many frame pointers of enclosing levels. -/
def copyDisplay (c : Cpu β) : Nat → Cpu β
  | 0 => c
  | n + 1 =>
    let bp := c.regs.bp - 2
    let outer := Bus.readWord c.bus (physical c.regs.ss bp)
    copyDisplay ({ c with regs := { c.regs with bp } }.push outer) n

def enterClocks : Nat → Nat
  | 0 => 11
  | 1 => 15
  | n => 15 + n

/-- Starts a stack frame of `size` bytes; at level 1 and above it holds the frame pointers of the
enclosing levels and its own. Only the low five bits of the level count. -/
def enter (c : Cpu β) (size : UInt16) (level : UInt8) : Cpu β :=
  let level := (level &&& 0x1F).toNat
  let c := c.push c.regs.bp
  let frame := c.regs.sp
  let c := if level = 0 then c else (c.copyDisplay (level - 1)).push frame
  { c with regs := { c.regs with bp := frame, sp := c.regs.sp - size } }.spend (enterClocks level)

def leave (c : Cpu β) : Cpu β :=
  let c := { c with regs := { c.regs with sp := c.regs.bp } }
  (c.popInto .bp).spend 5

def portNumber (c : Cpu β) : PortNumber → UInt16
  | .immediate port => port.toUInt16
  | .dx => c.regs.dx

def portClocks : PortNumber → Nat
  | .immediate _ => 10
  | .dx => 8

def input (c : Cpu β) (w : Width) (port : PortNumber) : Cpu β :=
  let (value, bus) := Bus.input c.bus w (c.portNumber port)
  ({ c with bus }.setReg w accumulator value).spend (portClocks port)

def output (c : Cpu β) (w : Width) (port : PortNumber) : Cpu β :=
  { c with bus := Bus.output c.bus w (c.portNumber port) (c.regs.read w accumulator) }.spend (portClocks port)

end Cpu
end RealMode
