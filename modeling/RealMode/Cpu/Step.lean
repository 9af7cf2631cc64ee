import RealMode.Cpu.Exec
import RealMode.Decode

/-!
One fetch cycle after another. A step first pays the timer ticks that are due. A halted processor
then only waits for an interrupt; a running one fetches and does one instruction, accepts a pending
interrupt, and else takes the single-step trap if the trap flag was set when it began.
-/

namespace RealMode

def fetchWindow : Nat := 6

inductive RunMode where
  | run
  | runFor (instructions : Nat)
  | step

abbrev RunResult := Except MissingHandler Stats

namespace Cpu

variable {β : Type} [Bus β]

def ticksOwed (c : Cpu β) : Nat :=
  (c.clock - c.lastTimerTick) / c.config.timerRatio

def syncTimer (c : Cpu β) : Cpu β :=
  let owed := c.ticksOwed
  { c with
    bus := Bus.ticks c.bus owed
    lastTimerTick := c.lastTimerTick + owed * c.config.timerRatio
    timerTicks := c.timerTicks + owed }

/-- Byte `i` of the instruction at CS:IP. The window lies in one piece from the code address on;
behind it bytes are fetched one by one from CS:IP. -/
def codeByte (c : Cpu β) (window : ByteArray) (i : Nat) : UInt8 :=
  if h : i < window.size then window.get i h
  else Bus.readByte c.bus (physical c.regs.cs (c.regs.ip + i.toUInt16))

def window (c : Cpu β) : ByteArray :=
  Bus.readBlock c.bus c.regs.codeAddress fetchWindow

def fetch (c : Cpu β) : Decoded :=
  decode c.config.variant (c.codeByte c.window)

def dispatch (c : Cpu β) : Outcome β :=
  let d := c.fetch
  (c.setIp (c.regs.ip + d.length.toUInt16)).exec d.instr

/-- What is done after an instruction that has not broken off. -/
def retire (c : Cpu β) : Cpu β :=
  { c with prefixes := c.prefixes.retire, instructions := c.instructions + 1 }

/-- The trap never comes between a prefix and the instruction it belongs to. -/
def trapIf (c : Cpu β) (armed : Bool) : Outcome β :=
  if armed && !c.prefixes.isPending then c.singleStepTrap else .ok c

/-- Between two instructions an accepted interrupt goes before the trap. -/
def betweenInstructions (c : Cpu β) (armed : Bool) : Outcome β :=
  if c.regs.flags.interrupt then
    match c.serviceIrq with
    | .idle c => c.trapIf armed
    | .accepted c => .ok c
    | .refused c e => ⟨c, some e⟩
  else c.trapIf armed

/-- A halted processor lets the time of one tick go by. -/
def idle (c : Cpu β) : Outcome β :=
  let c := c.spend c.config.timerRatio
  if c.regs.flags.interrupt then
    match c.serviceIrq with
    | .idle c | .accepted c => .ok c
    | .refused c e => ⟨c, some e⟩
  else .ok c

def cycle (c : Cpu β) : Outcome β :=
  let armed := c.regs.flags.trap
  c.dispatch.andThen fun c => c.retire.betweenInstructions armed

def step (c : Cpu β) : Outcome β :=
  let c := c.syncTimer
  if c.halted then c.idle else c.cycle

/-- At most `n` steps, none of a stopped processor. -/
def runFor (c : Cpu β) : Nat → Outcome β
  | 0 => .ok c
  | n + 1 =>
    if c.stopped then .ok c
    else
      match c.step with
      | ⟨c, none⟩ => runFor c n
      | ⟨c, some e⟩ => ⟨c, some e⟩

def unbounded : Nat := 0xFFFFFFFFFFFFFFFF

/-- A single step is made even of a stopped processor. -/
def runMode (c : Cpu β) : RunMode → Outcome β
  | .run => c.runFor unbounded
  | .runFor n => c.runFor n
  | .step => c.step

end Cpu

namespace Outcome

variable {β : Type}

def result (o : Outcome β) : RunResult :=
  match o.missing with
  | none => .ok o.cpu.stats
  | some e => .error e

end Outcome
end RealMode
