import RealMode.Device.Pic
import RealMode.Device.Pit
import RealMode.Hex

/-!
The bus of a PC: memory with a ROM window, interrupt controller and timer on board, and any number
of attached port devices. Each port has at most one owner, who keeps it. A word access goes to the
owner of the port as a whole if the owner takes words, and else byte by byte to the owners of both
ports.
-/

namespace RealMode

inductive PortOwner where
  | pic
  | pit
  | attached (index : Nat)
  deriving DecidableEq

/-- A device claims a port that has an owner. -/
structure PortConflict where
  port : UInt16
  owner : String
  deriving DecidableEq

namespace PortConflict

def message (e : PortConflict) : String :=
  "Port " ++ Hex.prefixed 4 e.port.toNat ++ " is already claimed by " ++ e.owner

end PortConflict

/-- Ports with their owners, in the order in which they were claimed. -/
abbrev PortMap := List (UInt16 × PortOwner)

namespace PortMap

def owner? (m : PortMap) (port : UInt16) : Option PortOwner :=
  m.lookup port

/-- A port that has an owner already is left to it. -/
def claim (m : PortMap) (owner : PortOwner) : List UInt16 → PortMap
  | [] => m
  | port :: rest =>
    claim (if (m.owner? port).isSome then m else m ++ [(port, owner)]) owner rest

def onBoard : PortMap :=
  claim (claim [] .pic (PortDevice.ports ({} : Pic))) .pit (PortDevice.ports ({} : Pit))

end PortMap

structure PcBus (δ : Type) where
  memory : Memory := .zero
  pic : Pic := {}
  pit : Pit := {}
  devices : Array δ := #[]
  ports : PortMap := .onBoard

namespace PcBus

variable {δ : Type} [PortDevice δ]

def ownerName (b : PcBus δ) : PortOwner → String
  | .pic => PortDevice.name b.pic
  | .pit => PortDevice.name b.pit
  | .attached i => (b.devices[i]?.map PortDevice.name).getD ""

def firstClaimed (b : PcBus δ) : List UInt16 → Option PortConflict
  | [] => none
  | port :: rest =>
    match b.ports.owner? port with
    | some owner => some ⟨port, b.ownerName owner⟩
    | none => firstClaimed b rest

/-- Either all ports of a device get it as their owner or nothing changes. -/
def attach (b : PcBus δ) (device : δ) : Except PortConflict (PcBus δ) :=
  let ports := PortDevice.ports device
  match b.firstClaimed ports with
  | some conflict => .error conflict
  | none => .ok { b with
      ports := b.ports.claim (.attached b.devices.size) ports
      devices := b.devices.push device }

/-- Ports in the order in which they were claimed, with the names of their owners. -/
def portMap (b : PcBus δ) : List (UInt16 × String) :=
  b.ports.map fun (port, owner) => (port, b.ownerName owner)

def resetChips (b : PcBus δ) : PcBus δ :=
  { b with pic := {}, pit := {} }

def raise (b : PcBus δ) (line : IrqLine) : PcBus δ :=
  { b with pic := b.pic.raise line }

def getOwned (b : PcBus δ) (owner : PortOwner) (port : UInt16) : UInt8 × PcBus δ :=
  match owner with
  | .pic =>
    let (value, pic) := PortDevice.getByte b.pic port
    (value, { b with pic })
  | .pit =>
    let (value, pit) := PortDevice.getByte b.pit port
    (value, { b with pit })
  | .attached i =>
    if h : i < b.devices.size then
      let (value, device) := PortDevice.getByte b.devices[i] port
      (value, { b with devices := b.devices.set i device })
    else (0, b)

def setOwned (b : PcBus δ) (owner : PortOwner) (port : UInt16) (value : UInt8) : PcBus δ :=
  match owner with
  | .pic => { b with pic := PortDevice.setByte b.pic port value }
  | .pit => { b with pit := PortDevice.setByte b.pit port value }
  | .attached i =>
    if h : i < b.devices.size then
      { b with devices := b.devices.set i (PortDevice.setByte b.devices[i] port value) }
    else b

/-- A port without an owner reads as zero. -/
def readPort (b : PcBus δ) (port : UInt16) : UInt8 × PcBus δ :=
  match b.ports.owner? port with
  | some owner => b.getOwned owner port
  | none => (0, b)

/-- Writes to a port without an owner are lost. -/
def writePort (b : PcBus δ) (port : UInt16) (value : UInt8) : PcBus δ :=
  match b.ports.owner? port with
  | some owner => b.setOwned owner port value
  | none => b

/-- The attached device that owns a port, if it takes words. Neither chip on board does. -/
def wordDevice? (b : PcBus δ) (port : UInt16) : Option (Fin b.devices.size) :=
  match b.ports.owner? port with
  | some (.attached i) =>
    if h : i < b.devices.size then
      if PortDevice.supportsWord b.devices[i] then some ⟨i, h⟩ else none
    else none
  | _ => none

def readPortWord (b : PcBus δ) (port : UInt16) : UInt16 × PcBus δ :=
  match b.wordDevice? port with
  | some i =>
    let (value, device) := PortDevice.getWord b.devices[i] port
    (value, { b with devices := b.devices.set i device })
  | none =>
    let (low, b) := b.readPort port
    let (high, b) := b.readPort (port + 1)
    (wordOfBytes low high, b)

def writePortWord (b : PcBus δ) (port value : UInt16) : PcBus δ :=
  match b.wordDevice? port with
  | some i => { b with devices := b.devices.set i (PortDevice.setWord b.devices[i] port value) }
  | none => (b.writePort port (lowByte value)).writePort (port + 1) (highByte value)

def acknowledge (b : PcBus δ) : Option PendingIrq × PcBus δ :=
  let (irq, pic) := b.pic.acknowledge
  (irq, { b with pic })

/-- An edge of the timer requests the timer interrupt. -/
def tick (b : PcBus δ) : PcBus δ :=
  let (edge, pit) := b.pit.tick
  { b with pit, pic := if edge then b.pic.raise .timer else b.pic }

instance : Bus (PcBus δ) where
  readByte b address := b.memory.get address
  writeByte b address value := { b with memory := b.memory.store address value }
  readWord b address := b.memory.readWord address
  writeWord b address value := { b with memory := b.memory.writeWord address value }
  readBlock b address count := b.memory.readBlock address count
  loadBlock b address data := { b with memory := b.memory.loadBlock address data }
  readPort := readPort
  writePort := writePort
  readPortWord := readPortWord
  writePortWord := writePortWord
  pendingIrq := acknowledge
  endOfInterrupt b line := { b with pic := b.pic.endOfInterrupt line }
  tick := tick

end PcBus
end RealMode
