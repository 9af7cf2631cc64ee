import RealMode.Bus
import RealMode.Device

/-!
The 8259 interrupt controller, alone and in fully nested mode: line 0 has the highest priority, and
a line in service holds back itself and all below it. Requests stay until they are handed out.
-/

namespace RealMode

/-- The request lines of a PC, in the order of their priority. -/
inductive IrqLine where
  | timer
  | keyboard
  | cascade
  | com2
  | com1
  | lpt2
  | floppy
  | lpt1
  deriving DecidableEq

namespace IrqLine

def all : List IrqLine := [timer, keyboard, cascade, com2, com1, lpt2, floppy, lpt1]

def name : IrqLine → String
  | timer => "Timer"
  | keyboard => "Keyboard"
  | cascade => "Cascade"
  | com2 => "Com2"
  | com1 => "Com1"
  | lpt2 => "Lpt2"
  | floppy => "Floppy"
  | lpt1 => "Lpt1"

def number : IrqLine → UInt8
  | timer => 0
  | keyboard => 1
  | cascade => 2
  | com2 => 3
  | com1 => 4
  | lpt2 => 5
  | floppy => 6
  | lpt1 => 7

end IrqLine

/-- What the next byte at the data port means. -/
inductive InitStage where
  | ready
  | icw2
  /-- The lines with further controllers. -/
  | icw3
  | icw4
  deriving DecidableEq

structure Pic where
  request : UInt8 := 0
  inService : UInt8 := 0
  mask : UInt8 := 0
  vectorOffset : UInt8 := 8
  stage : InitStage := .ready
  icw4Needed : Bool := false
  single : Bool := true
  /-- Reads of the command port give the lines in service instead of the requests. -/
  readInService : Bool := false
  deriving DecidableEq

namespace Pic

def commandPort : UInt16 := 0x20

def dataPort : UInt16 := 0x21

def bit (line : UInt8) : UInt8 := 1 <<< line

def lines : List UInt8 := [0, 1, 2, 3, 4, 5, 6, 7]

def raise (p : Pic) (line : IrqLine) : Pic :=
  { p with request := p.request ||| bit line.number }

/-- The first of `lines` that is requested and not masked, unless one before it, or it itself, is
in service. -/
def deliverable (p : Pic) : List UInt8 → Option UInt8
  | [] => none
  | line :: rest =>
    if p.inService &&& bit line != 0 then none
    else if p.request &&& bit line != 0 && p.mask &&& bit line == 0 then some line
    else deliverable p rest

/-- Hands out the request of the highest priority and puts its line in service. -/
def acknowledge (p : Pic) : Option PendingIrq × Pic :=
  match p.deliverable lines with
  | some line =>
    (some ⟨p.vectorOffset + line, line⟩,
      { p with
        request := p.request &&& ~~~bit line
        inService := p.inService ||| bit line })
  | none => (none, p)

/-- Only the low three bits of the line count. -/
def endOfInterrupt (p : Pic) (line : UInt8) : Pic :=
  { p with inService := p.inService &&& ~~~bit (line &&& 7) }

/-- Ends the line of the highest priority in service, if there is one. -/
def endHighest (p : Pic) : Pic :=
  { p with inService := p.inService &&& (p.inService - 1) }

/-- The first word of an initialisation. Pending requests are kept. -/
def beginInit (p : Pic) (value : UInt8) : Pic :=
  { p with
    icw4Needed := value &&& 0x01 != 0
    single := value &&& 0x02 != 0
    stage := .icw2
    mask := 0
    inService := 0
    readInService := false }

/-- Of the commands that end interrupts there are two: for the highest line and for a given one. -/
def endCommand (p : Pic) (value : UInt8) : Pic :=
  if value >>> 5 = 1 then p.endHighest
  else if value >>> 5 = 3 then p.endOfInterrupt (value &&& 7)
  else p

def writeCommand (p : Pic) (value : UInt8) : Pic :=
  if value &&& 0x10 != 0 then p.beginInit value
  else if value &&& 0x18 == 0 then p.endCommand value
  else if value &&& 0x98 == 0x08 && value &&& 0x02 != 0 then
    { p with readInService := value &&& 0x01 != 0 }
  else p

/-- The stage after the vector offset: words that are not needed are left out. -/
def stageAfterOffset (p : Pic) : InitStage :=
  if !p.single then .icw3 else if p.icw4Needed then .icw4 else .ready

def writeData (p : Pic) (value : UInt8) : Pic :=
  match p.stage with
  | .icw2 => { p with vectorOffset := value &&& 0xF8, stage := p.stageAfterOffset }
  | .icw3 => { p with stage := if p.icw4Needed then .icw4 else .ready }
  | .icw4 => { p with stage := .ready }
  | .ready => { p with mask := value }

def getByte (p : Pic) (port : UInt16) : UInt8 :=
  if port = commandPort then (if p.readInService then p.inService else p.request) else p.mask

def setByte (p : Pic) (port : UInt16) (value : UInt8) : Pic :=
  if port = commandPort then p.writeCommand value else p.writeData value

instance : PortDevice Pic where
  name _ := "8259 PIC"
  ports _ := [commandPort, dataPort]
  getByte p port := (p.getByte port, p)
  setByte := setByte

end Pic
end RealMode
