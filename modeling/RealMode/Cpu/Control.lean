import RealMode.Cpu.Transfer

/-!
Instructions that change the course of a program: jumps, calls, returns, loops, and those that enter
an interrupt handler. The instruction pointer already stands behind the instruction, and
displacements count from there.
-/

namespace RealMode
namespace Cpu

variable {β : Type}

def jump (c : Cpu β) (displacement : UInt16) : Cpu β :=
  c.setIp (c.regs.ip + displacement)

def jumpFar (c : Cpu β) (segment offset : UInt16) : Cpu β :=
  { c with regs := { c.regs with cs := segment, ip := offset } }

def jumpIf (c : Cpu β) (taken : Bool) (displacement : UInt16) : Cpu β :=
  if taken then (c.jump displacement).spend 16 else c.spend 4

/-- Whether a loop goes round again, by its test and the counter it has just taken down. -/
def loopTaken (s : Registers) : LoopTest → Bool
  | .counter => s.cx != 0
  | .whileZero => s.cx != 0 && s.flags.zero
  | .whileNotZero => s.cx != 0 && !s.flags.zero

def loopClocks (taken : Bool) : LoopTest → Nat
  | .counter => if taken then 17 else 5
  | .whileZero => if taken then 18 else 6
  | .whileNotZero => if taken then 19 else 5

/-- A taken loop notes both its ends, the lower one first. -/
def loop (c : Cpu β) (test : LoopTest) (displacement : UInt8) : Cpu β :=
  let c := { c with regs := { c.regs with cx := c.regs.cx - 1 } }
  let taken := loopTaken c.regs test
  let start := c.regs.ip
  let target := start + signExtend displacement
  let c :=
    if taken then
      { c.setIp target with
        loopBounds :=
          some (if 0 < displacement.toInt8 then (start, target) else (target, start)) }
    else { c with loopBounds := none }
  c.spend (loopClocks taken test)

def halt (c : Cpu β) : Cpu β :=
  { c with loopBounds := none, halted := true }.spend 2

def flag (c : Cpu β) (op : FlagOp) : Cpu β :=
  let f := c.regs.flags
  let f := match op with
    | .complementCarry => { f with carry := !f.carry }
    | .clearCarry => { f with carry := false }
    | .setCarry => { f with carry := true }
    | .clearInterrupt => { f with interrupt := false }
    | .setInterrupt => { f with interrupt := true }
    | .clearDirection => { f with direction := false }
    | .setDirection => { f with direction := true }
  (c.setFlags f).spend 2

/-- A prefix asks for itself to outlive the instruction that it is. -/
def setPrefixes (c : Cpu β) (p : Prefixes) : Cpu β :=
  { c with prefixes := { p with keep := true } }

variable [Bus β]

def call (c : Cpu β) (target : UInt16) : Cpu β :=
  (c.push c.regs.ip).setIp target

def callRm (c : Cpu β) (rm : Operand) : Cpu β :=
  (c.call (c.load .word (c.locate rm))).spend (rm.cost 16 21)

def jumpRm (c : Cpu β) (rm : Operand) : Cpu β :=
  (c.setIp (c.load .word (c.locate rm))).spend (rm.cost 11 18)

def callFarMem (c : Cpu β) (m : MemOperand) : Cpu β :=
  let (offset, segment) := Bus.readFar c.bus (c.address m)
  (c.farCall segment offset).spend (37 + m.clocks)

def jumpFarMem (c : Cpu β) (m : MemOperand) : Cpu β :=
  let (offset, segment) := Bus.readFar c.bus (c.address m)
  (c.jumpFar segment offset).spend (24 + m.clocks)

/-- Pops IP and gives up the bytes of arguments that the caller had pushed. -/
def ret (c : Cpu β) (arguments : Option UInt16) : Cpu β :=
  let (ip, c) := c.pop
  let c := c.setIp ip
  match arguments with
  | some bytes => (c.release bytes).spend 12
  | none => c.spend 8

def retFar (c : Cpu β) (arguments : Option UInt16) : Cpu β :=
  let (ip, c) := c.pop
  let (cs, c) := c.pop
  let c := c.jumpFar cs ip
  match arguments with
  | some bytes => (c.release bytes).spend 17
  | none => c.spend 18

/-- Both bounds are signed and belong to the range. -/
def bound (c : Cpu β) (reg : Fin 8) (m : MemOperand) : Outcome β :=
  let (lower, upper) := Bus.readFar c.bus (c.address m)
  let index := (c.regs.read .word reg).toInt16
  let c := c.spend (13 + m.clocks)
  if index < lower.toInt16 ∨ upper.toInt16 < index then c.raise Exception.boundRange.vector
  else .ok c

def int3 (c : Cpu β) : Outcome β :=
  (c.raise Exception.breakpoint.vector).andThen fun c => .ok (c.spend 1)

def into (c : Cpu β) : Outcome β :=
  if c.regs.flags.overflow then
    (c.raise Exception.overflow.vector).andThen fun c => .ok (c.spend 6)
  else .ok (c.spend 4)

/-- What has no meaning takes no time, and on the 80186 raises an exception. -/
def unknown (c : Cpu β) : Outcome β :=
  match c.config.variant with
  | .i8086 => .ok c
  | .i80186 => c.raise Exception.invalidOpcode.vector

/-- There is no coprocessor: its operand is dropped, and the 80186 raises an exception. -/
def escape (c : Cpu β) (rm : Operand) : Outcome β :=
  let c := c.spend (rm.cost 2 8)
  match c.config.variant with
  | .i8086 => .ok c
  | .i80186 => c.raise Exception.coprocessorUnavailable.vector

end Cpu
end RealMode
