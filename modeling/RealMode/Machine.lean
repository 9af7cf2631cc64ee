import RealMode.Cpu.Image
import RealMode.Cpu.Step
import RealMode.PcBus

/-!
A processor on a PC bus, with a flag by which the host asks a run to stop.
-/

namespace RealMode

structure Machine (δ : Type) where
  cpu : Cpu (PcBus δ)
  /-- Looked at before every step of a run. -/
  stop : Bool := false

namespace Machine

variable {δ : Type}

def ofConfig (config : Config) : Machine δ where
  cpu := { bus := {}, config }

def budget : RunMode → Nat
  | .run => Cpu.unbounded
  | .runFor n => n
  | .step => 1

variable [PortDevice δ]

def bus (m : Machine δ) : PcBus δ := m.cpu.bus

def mapBus (m : Machine δ) (f : PcBus δ → PcBus δ) : Machine δ :=
  { m with cpu := { m.cpu with bus := f m.cpu.bus } }

def attach (m : Machine δ) (device : δ) : Except PortConflict (Machine δ) :=
  (m.cpu.bus.attach device).map fun bus => { m with cpu := { m.cpu with bus } }

def loadProgram (m : Machine δ) (segment : UInt32) (program : ByteArray) :
    Except LoadError (Machine δ) :=
  (m.cpu.loadProgram segment program).map fun cpu => { m with cpu }

def loadBootstrapped (m : Machine δ) (segment : UInt32) (program : ByteArray) :
    Except LoadError (Machine δ) :=
  (m.cpu.loadBootstrapped segment program).map fun cpu => { m with cpu }

def loadBios (m : Machine δ) (image : ByteArray) : Except LoadError (Machine δ) :=
  (m.cpu.loadBios image).map fun cpu => { m with cpu }

/-- Power cycle: processor and chips on board start anew, memory and attached devices are kept. -/
def reset (m : Machine δ) : Machine δ :=
  { cpu := { m.cpu with bus := m.cpu.bus.resetChips }.reset }

/-- As `Cpu.runFor`, with a look at the stop flag before every step. -/
def runSteps (stop : Bool) (c : Cpu (PcBus δ)) : Nat → Outcome (PcBus δ)
  | 0 => .ok c
  | n + 1 =>
    if stop then .ok c
    else if c.stopped then .ok c
    else
      match c.step with
      | ⟨c, none⟩ => runSteps stop c n
      | ⟨c, some e⟩ => ⟨c, some e⟩

/-- Runs until the processor or the host stops, or the budget is spent. -/
def run (m : Machine δ) (mode : RunMode) : RunResult × Machine δ :=
  let o := runSteps m.stop m.cpu (budget mode)
  (o.result, { m with cpu := o.cpu })

end Machine
end RealMode
