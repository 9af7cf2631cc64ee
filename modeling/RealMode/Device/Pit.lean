import RealMode.Device

/-!
The 8253 interval timer: three channels that count down one for each input clock. A channel runs
from the moment its count has been written in full. Reads see either the running counter or a value
latched earlier, and change nothing of the count.
-/

namespace RealMode
namespace Pit

inductive Mode where
  | interruptOnTerminalCount
  | oneShot
  | rateGenerator
  | squareWave
  | softwareStrobe
  | hardwareStrobe
  deriving DecidableEq

namespace Mode

def all : List Mode :=
  [interruptOnTerminalCount, oneShot, rateGenerator, squareWave, softwareStrobe, hardwareStrobe]

/-- Encodings 6 and 7 are second names of 2 and 3. -/
def ofIndex : Fin 8 → Mode
  | 0 => interruptOnTerminalCount
  | 1 => oneShot
  | 2 | 6 => rateGenerator
  | 3 | 7 => squareWave
  | 4 => softwareStrobe
  | 5 => hardwareStrobe

def name : Mode → String
  | interruptOnTerminalCount => "InterruptOnTerminalCount"
  | oneShot => "OneShot"
  | rateGenerator => "RateGenerator"
  | squareWave => "SquareWave"
  | softwareStrobe => "SoftwareStrobe"
  | hardwareStrobe => "HardwareStrobe"

end Mode

inductive Access where
  | latch
  | low
  | high
  | lowHigh
  deriving DecidableEq

namespace Access

def all : List Access := [latch, low, high, lowHigh]

def ofIndex : Fin 4 → Access
  | 0 => latch
  | 1 => low
  | 2 => high
  | 3 => lowHigh

def name : Access → String
  | latch => "Latch"
  | low => "Low"
  | high => "High"
  | lowHigh => "LowHigh"

end Access

structure Channel where
  mode : Mode := .interruptOnTerminalCount
  access : Access := .lowHigh
  reload : UInt16 := 0
  counter : Nat := 0
  latched : Option UInt16 := none
  /-- The next read of a word gives its high byte. -/
  readHigh : Bool := false
  /-- The next write of a word gives its high byte. -/
  writeHigh : Bool := false
  armed : Bool := false
  output : Bool := false
  deriving DecidableEq

namespace Channel

/-- A reload value of zero stands for 65536. -/
def period (c : Channel) : Nat :=
  if c.reload = 0 then 0x10000 else c.reload.toNat

/-- The square wave takes two off the counter at a time and starts from an even number. -/
def evenPeriod (c : Channel) : Nat :=
  c.period / 2 * 2

def count (c : Channel) : UInt16 := c.counter.toUInt16

/-- Output before counting: low only in the mode that signals the end of the count. -/
def restingOutput (mode : Mode) : Bool :=
  mode != .interruptOnTerminalCount

/-- A control word stops the channel until a count is written. -/
def program (c : Channel) (mode : Mode) (access : Access) : Channel :=
  { c with
    mode
    access
    latched := none
    readHigh := false
    writeHigh := false
    armed := false
    output := restingOutput mode }

def start (c : Channel) : Channel :=
  { c with
    counter := match c.mode with
      | .squareWave => c.evenPeriod
      | _ => c.period
    latched := none
    armed := true
    output := restingOutput c.mode }

/-- The first byte of a word stops the channel, the second starts it. -/
def write (c : Channel) (value : UInt8) : Channel :=
  match c.access with
  | .low => { c with reload := wordOfBytes value 0 }.start
  | .high => { c with reload := wordOfBytes 0 value }.start
  | .lowHigh | .latch =>
    if c.access = .lowHigh ∧ c.writeHigh then
      { c with reload := wordOfBytes (lowByte c.reload) value, writeHigh := false }.start
    else
      { c with
        reload := wordOfBytes value (highByte c.reload)
        writeHigh := true
        armed := false }

/-- A latched value is given up once it has been read in full. -/
def read (c : Channel) : UInt8 × Channel :=
  let value := c.latched.getD c.count
  match c.access with
  | .low => (lowByte value, { c with latched := none })
  | .high => (highByte value, { c with latched := none })
  | .lowHigh | .latch =>
    if c.readHigh then (highByte value, { c with latched := none, readHigh := false })
    else (lowByte value, { c with readHigh := true })

def latch (c : Channel) : Channel :=
  { c with latched := some c.count }

/-- One input clock on a running channel; true on a rising edge of the output. The modes driven by
a gate never count, for want of a gate. -/
def advance (c : Channel) : Bool × Channel :=
  match c.mode with
  | .interruptOnTerminalCount | .softwareStrobe =>
    if c.output || c.counter == 0 then (false, c)
    else
      let last := c.counter == 1
      (last, { c with counter := c.counter - 1, output := last })
  | .rateGenerator =>
    if c.counter ≤ 1 then (true, { c with counter := c.period })
    else (false, { c with counter := c.counter - 1 })
  | .squareWave =>
    if c.counter ≤ 2 then (!c.output, { c with counter := c.evenPeriod, output := !c.output })
    else (false, { c with counter := c.counter - 2 })
  | .oneShot | .hardwareStrobe => (false, c)

def tick (c : Channel) : Bool × Channel :=
  if c.armed then c.advance else (false, c)

end Channel
end Pit

structure Pit where
  channels : Vector Pit.Channel 3 := .replicate 3 {}
  deriving DecidableEq

namespace Pit

/-- The port of channel 0; the other channels follow. -/
def channelBase : UInt16 := 0x40

def controlPort : UInt16 := 0x43

def modifyChannel (p : Pit) (i : Fin 3) (f : Channel → Channel) : Pit :=
  { p with channels := p.channels.set i (f p.channels[i]) }

/-- One input clock on every channel. Only channel 0 is wired to an interrupt line. -/
def tick (p : Pit) : Bool × Pit :=
  let ticked := p.channels.map Channel.tick
  (ticked[0].1, { p with channels := ticked.map Prod.snd })

/-- The numbers, counted from one, of the ticks among the next `n` that give an edge. -/
def edges (p : Pit) (n : Nat) : List Nat × Pit :=
  let (found, p) := n.fold (fun i _ (found, p) =>
    let (edge, p) := Pit.tick p
    (if edge then (i + 1) :: found else found, p)) (([] : List Nat), p)
  (found.reverse, p)

/-- A channel by number; there is no channel 3. -/
def channelIndex? (n : Nat) : Option (Fin 3) :=
  if h : n < 3 then some ⟨n, h⟩ else none

/-- Programs the channel in the top two bits, or latches its count. -/
def writeControl (p : Pit) (value : UInt8) : Pit :=
  match channelIndex? (value.toNat / 64) with
  | none => p
  | some i =>
    match Access.ofIndex (lowTwo (value.toNat / 16)) with
    | .latch => p.modifyChannel i Channel.latch
    | access => p.modifyChannel i fun c => c.program (.ofIndex (lowThree (value.toNat / 2))) access

def portChannel? (port : UInt16) : Option (Fin 3) :=
  channelIndex? (port - channelBase).toNat

def getByte (p : Pit) (port : UInt16) : UInt8 × Pit :=
  match portChannel? port with
  | some i =>
    let (value, c) := p.channels[i].read
    (value, { p with channels := p.channels.set i c })
  | none => (0, p)

def setByte (p : Pit) (port : UInt16) (value : UInt8) : Pit :=
  if port = controlPort then p.writeControl value
  else
    match portChannel? port with
    | some i => p.modifyChannel i (·.write value)
    | none => p

instance : PortDevice Pit where
  name _ := "8253 PIT"
  ports _ := [0x40, 0x41, 0x42, 0x43]
  getByte := getByte
  setByte := setByte

end Pit
end RealMode
