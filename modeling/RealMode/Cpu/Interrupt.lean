import RealMode.Cpu.Operand
import RealMode.Vector

/-!
Entering and leaving interrupt handlers. Every entry pushes flags, CS and IP and jumps through the
vector. A hardware interrupt also sets the segment override, the repeat mode and the loop bounds of
the interrupted program aside, in a frame that the return with the same stack top takes back.
-/

namespace RealMode

def maxIrqFrames : Nat := 64

inductive Acceptance (β : Type) where
  | idle (c : Cpu β)
  | accepted (c : Cpu β)
  | refused (c : Cpu β) (e : MissingHandler)

namespace Cpu

variable {β : Type} [Bus β]

def handler (c : Cpu β) (vector : UInt8) : Except MissingHandler (UInt16 × UInt16) :=
  let (offset, segment) := Bus.readFar c.bus (vectorAddress vector)
  if c.config.strictVectors && offset == 0 && segment == 0 then .error ⟨vector⟩
  else .ok (segment, offset)

def farCall (c : Cpu β) (segment offset : UInt16) : Cpu β :=
  let c := (c.push c.regs.cs).push c.regs.ip
  { c with regs := { c.regs with cs := segment, ip := offset } }

/-- The flags are pushed as they were before `mask` has changed them. -/
def enterInterrupt (c : Cpu β) (target : UInt16 × UInt16) (mask : Flags → Flags) : Cpu β :=
  let c := c.push c.regs.flags.toWord
  ((c.setFlags (mask c.regs.flags)).farCall target.1 target.2).spend 51

/-- Nothing changes if there is no handler. -/
def interrupt (c : Cpu β) (vector : UInt8) (mask : Flags → Flags) : Outcome β :=
  match c.handler vector with
  | .ok target => .ok (c.enterInterrupt target mask)
  | .error e => ⟨c, some e⟩

/-- Interrupts out of an instruction leave the interrupt and trap flags to the handler. -/
def raise (c : Cpu β) (vector : UInt8) : Outcome β :=
  c.interrupt vector id

/-- The trap after an instruction that began with the trap flag set. -/
def singleStepTrap (c : Cpu β) : Outcome β :=
  c.interrupt Exception.singleStep.vector Flags.maskInterrupts

def irqContext (c : Cpu β) : IrqContext :=
  ⟨c.prefixes.segment, c.prefixes.rep, c.loopBounds⟩

/-- Enters the handler of a hardware interrupt. If too many are in service the oldest is
forgotten. -/
def enterIrq (c : Cpu β) (irq : PendingIrq) (target : UInt16 × UInt16) : Cpu β :=
  let context := c.irqContext
  let c := { c with
    prefixes := { c.prefixes with segment := none, rep := none }
    loopBounds := none }
  let c := c.enterInterrupt target Flags.maskInterrupts
  { c with
    irqFrames := (⟨c.regs.ss, c.regs.sp, irq.line, context⟩ :: c.irqFrames).take maxIrqFrames
    halted := false }

/-- Accepts a pending hardware interrupt. The controller has put the line in service by the time
its handler turns out to be missing, so the line is ended again. -/
def serviceIrq (c : Cpu β) : Acceptance β :=
  match Bus.pendingIrq c.bus with
  | (none, bus) => .idle { c with bus }
  | (some irq, bus) =>
    let c := { c with bus }
    match c.handler irq.vector with
    | .ok target => .accepted (c.enterIrq irq target)
    | .error e => .refused { c with bus := Bus.endOfInterrupt c.bus irq.line } e

/-- Takes back what the innermost hardware interrupt had set aside, and ends its line. -/
def endIrq (c : Cpu β) (frame : IrqFrame) (outer : List IrqFrame) : Cpu β :=
  { c with
    prefixes := { c.prefixes with
      segment := frame.context.segment, rep := frame.context.rep, keep := true }
    loopBounds := frame.context.loopBounds
    irqFrames := outer
    bus := Bus.endOfInterrupt c.bus frame.line }

/-- Pops IP, CS and flags. It ends a hardware interrupt if the stack top is the one that its entry
left. -/
def returnFromInterrupt (c : Cpu β) : Cpu β :=
  let ss := c.regs.ss
  let sp := c.regs.sp
  let (ip, c) := c.pop
  let (cs, c) := c.pop
  let (flags, c) := c.pop
  let c := { c with regs := { c.regs with ip, cs, flags := .ofWord flags } }.spend 24
  match c.irqFrames with
  | frame :: outer => if frame.ss = ss ∧ frame.sp = sp then c.endIrq frame outer else c
  | [] => c

end Cpu
end RealMode
