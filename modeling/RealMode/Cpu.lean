import RealMode.Bus
import RealMode.Hex
import RealMode.Opcode

/-!
The processor: registers, bus, prefixes in force, hardware interrupts in service, and the counters
of time. The clock counts processor clocks; every `timerRatio` of them the bus gets one timer tick,
paid at the start of the next step.
-/

namespace RealMode

structure Config where
  variant : Variant := .i8086
  timerRatio : Nat := 4
  /-- A jump through an empty vector is an error instead of a jump to address zero. -/
  strictVectors : Bool := false
  timerRatio_pos : 0 < timerRatio := by decide

namespace Config

/-- A ratio of zero counts as one. -/
def ofRatio (variant : Variant) (ratio : Nat) (strictVectors : Bool) : Config where
  variant
  timerRatio := max 1 ratio
  strictVectors
  timerRatio_pos := by omega

end Config

/-- An interrupt was to be entered whose vector is 0000:0000, and the processor is told not to
accept that. -/
structure MissingHandler where
  vector : UInt8
  deriving DecidableEq

namespace MissingHandler

def message (e : MissingHandler) : String :=
  "Interrupt vector " ++ Hex.prefixed 2 e.vector.toNat
    ++ " points to 0000:0000 (no handler installed)"

end MissingHandler

/-- What a hardware interrupt sets aside until its return. -/
structure IrqContext where
  segment : Option SegReg
  rep : Option RepeatMode
  loopBounds : Option (UInt16 × UInt16)
  deriving DecidableEq

/-- A hardware interrupt in service. `ss` and `sp` give the top of the stack as its return will
find it. -/
structure IrqFrame where
  ss : UInt16
  sp : UInt16
  line : UInt8
  context : IrqContext
  deriving DecidableEq

structure Cpu (β : Type) where
  regs : Registers := .powerOn
  bus : β
  config : Config
  prefixes : Prefixes := {}
  /-- Both ends of the last taken loop. -/
  loopBounds : Option (UInt16 × UInt16) := none
  /-- Innermost first. -/
  irqFrames : List IrqFrame := []
  clock : Nat := 0
  /-- The clock up to which timer ticks have been paid. -/
  lastTimerTick : Nat := 0
  instructions : Nat := 0
  timerTicks : Nat := 0
  halted : Bool := false

structure Stats where
  cycles : Nat
  instructions : Nat
  timerTicks : Nat
  deriving DecidableEq

/-- A processor after some work, and the reason if the work broke off. -/
structure Outcome (β : Type) where
  cpu : Cpu β
  missing : Option MissingHandler := none

namespace Outcome

variable {β : Type}

def ok (c : Cpu β) : Outcome β := ⟨c, none⟩

def andThen (o : Outcome β) (f : Cpu β → Outcome β) : Outcome β :=
  match o with
  | ⟨c, none⟩ => f c
  | ⟨c, some e⟩ => ⟨c, some e⟩

end Outcome

namespace Cpu

variable {β : Type}

/-- The state after power on. Memory, ports and configuration are kept. -/
def reset (c : Cpu β) : Cpu β := { bus := c.bus, config := c.config }

def setEntry (c : Cpu β) (segment offset : UInt16) : Cpu β :=
  { c with regs := { c.regs with cs := segment, ip := offset }, halted := false }

def stats (c : Cpu β) : Stats := ⟨c.clock, c.instructions, c.timerTicks⟩

/-- Halted with interrupts off: nothing can wake the processor. -/
def stopped (c : Cpu β) : Bool :=
  c.halted && !c.regs.flags.interrupt

def spend (c : Cpu β) (clocks : Nat) : Cpu β :=
  { c with clock := c.clock + clocks }

def setFlags (c : Cpu β) (flags : Flags) : Cpu β :=
  { c with regs := { c.regs with flags } }

def setIp (c : Cpu β) (ip : UInt16) : Cpu β :=
  { c with regs := { c.regs with ip } }

def setReg (c : Cpu β) (w : Width) (i : Fin 8) (value : UInt16) : Cpu β :=
  { c with regs := c.regs.write w i value }

end Cpu
end RealMode
