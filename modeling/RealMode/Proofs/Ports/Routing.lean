import RealMode.Proofs.Ports.Owners

/-!
Where the accesses of a port go. Whatever has been attached and done to a bus before, a byte reaches
the owner of its port and nothing else, and a word reaches an owner that takes words as a whole and
else the owners of two neighbouring ports one after the other.
-/

namespace RealMode
namespace PcBus

/-- What can happen to a bus. -/
inductive Op (δ : Type) where
  | attach (device : δ)
  | readPort (port : UInt16)
  | writePort (port : UInt16) (value : UInt8)
  | readPortWord (port : UInt16)
  | writePortWord (port value : UInt16)
  | writeByte (address : UInt32) (value : UInt8)
  | writeWord (address : UInt32) (value : UInt16)
  | loadBlock (address : UInt32) (data : ByteArray)
  | pendingIrq
  | endOfInterrupt (line : UInt8)
  | tick
  | raise (line : IrqLine)
  | resetChips

variable {δ : Type}

/-- One owner has become another, and everything else on the bus is as before. -/
structure Replaced (owner : PortOwner) (part : PortPart δ) (b d : PcBus δ) : Prop where
  part : d.part? owner = some part
  others : ∀ other, other ≠ owner → d.part? other = b.part? other
  ports : d.ports = b.ports
  memory : d.memory = b.memory

theorem replaced_pic (b : PcBus δ) (chip : Pic) :
    Replaced .pic (.pic chip) b { b with pic := chip } where
  part := rfl
  others other apart := by
    cases other with
    | pic => exact absurd rfl apart
    | pit | attached => rfl
  ports := rfl
  memory := rfl

theorem replaced_pit (b : PcBus δ) (chip : Pit) :
    Replaced .pit (.pit chip) b { b with pit := chip } where
  part := rfl
  others other apart := by
    cases other with
    | pit => exact absurd rfl apart
    | pic | attached => rfl
  ports := rfl
  memory := rfl

theorem replaced_attached (b : PcBus δ) {i : Nat} (h : i < b.devices.size) (device : δ) :
    Replaced (.attached i) (.attached device) b { b with devices := b.devices.set i device } where
  part := by rw [part?, Array.getElem?_set_self]; rfl
  others other apart := by
    cases other with
    | pic | pit => rfl
    | attached j =>
        have apart : i ≠ j := fun same => apart (congrArg _ same.symm)
        rw [part?, Array.getElem?_set_ne _ apart]
        rfl
  ports := rfl
  memory := rfl

theorem part?_attached_eq_some_iff {b : PcBus δ} {i : Nat} {part : PortPart δ} :
    b.part? (.attached i) = some part ↔ ∃ h : i < b.devices.size, part = .attached b.devices[i] := by
  constructor
  · intro found
    obtain ⟨device, at_i, rfl⟩ := Option.map_eq_some_iff.1 found
    obtain ⟨below, rfl⟩ := Array.getElem?_eq_some_iff.1 at_i
    exact ⟨below, rfl⟩
  · rintro ⟨below, rfl⟩
    rw [part?, Array.getElem?_eq_getElem below]
    rfl

theorem sameWiring_set (b : PcBus δ) {i : Nat} (h : i < b.devices.size) (device : δ) :
    SameWiring b { b with devices := b.devices.set i device } :=
  ⟨rfl, Array.size_set h⟩

variable [PortDevice δ] {b : PcBus δ} {port : UInt16} {owner : PortOwner} {part : PortPart δ}

/-- What is refused changes nothing. -/
def perform (b : PcBus δ) : Op δ → PcBus δ
  | .attach device => (b.attach device).toOption.getD b
  | .readPort port => (Bus.readPort b port).2
  | .writePort port value => Bus.writePort b port value
  | .readPortWord port => (Bus.readPortWord b port).2
  | .writePortWord port value => Bus.writePortWord b port value
  | .writeByte address value => Bus.writeByte b address value
  | .writeWord address value => Bus.writeWord b address value
  | .loadBlock address data => Bus.loadBlock b address data
  | .pendingIrq => (Bus.pendingIrq b).2
  | .endOfInterrupt line => Bus.endOfInterrupt b line
  | .tick => Bus.tick b
  | .raise line => b.raise line
  | .resetChips => b.resetChips

/-- After these operations on a new bus. -/
def after (ops : List (Op δ)) : PcBus δ := ops.foldl perform {}

theorem getOwned_replaces (found : b.part? owner = some part) (port : UInt16) :
    (b.getOwned owner port).1 = (PortDevice.getByte part port).1 ∧
      Replaced owner (PortDevice.getByte part port).2 b (b.getOwned owner port).2 := by
  cases owner with
  | pic =>
      cases found
      exact ⟨rfl, replaced_pic b _⟩
  | pit =>
      cases found
      exact ⟨rfl, replaced_pit b _⟩
  | attached i =>
      obtain ⟨below, rfl⟩ := part?_attached_eq_some_iff.1 found
      rw [getOwned, dif_pos below]
      exact ⟨rfl, replaced_attached b below _⟩

theorem setOwned_replaces (found : b.part? owner = some part) (port : UInt16) (value : UInt8) :
    Replaced owner (PortDevice.setByte part port value) b (b.setOwned owner port value) := by
  cases owner with
  | pic =>
      cases found
      exact replaced_pic b _
  | pit =>
      cases found
      exact replaced_pit b _
  | attached i =>
      obtain ⟨below, rfl⟩ := part?_attached_eq_some_iff.1 found
      rw [setOwned, dif_pos below]
      exact replaced_attached b below _

/-- The port has this owner, who takes words. -/
structure TakesWords (b : PcBus δ) (port : UInt16) (owner : PortOwner) (part : PortPart δ) :
    Prop where
  owned : b.ports.owner? port = some owner
  found : b.part? owner = some part
  words : PortDevice.supportsWord part = true

/-- Neither chip on board takes words. -/
theorem TakesWords.wordDevice (h : b.TakesWords port owner part) :
    ∃ i, ∃ below : i < b.devices.size, owner = .attached i ∧ part = .attached b.devices[i] ∧
      b.wordDevice? port = some ⟨i, below⟩ := by
  obtain ⟨owned, found, words⟩ := h
  cases owner with
  | pic | pit =>
      cases found
      cases words
  | attached i =>
      obtain ⟨below, rfl⟩ := part?_attached_eq_some_iff.1 found
      refine ⟨i, below, rfl, rfl, ?_⟩
      rw [wordDevice?, owned]
      exact (dif_pos below).trans (if_pos words)

theorem wordDevice?_eq_none (bytes : ∀ owner part, ¬ b.TakesWords port owner part) :
    b.wordDevice? port = none := by
  rw [wordDevice?]
  split
  next i owned =>
    split
    next below =>
      have found := part?_attached_eq_some_iff.2 ⟨below, rfl⟩
      exact if_neg fun words => bytes _ _ ⟨owned, found, words⟩
    next => rfl
  next => rfl

theorem TakesWords.readPortWord (h : b.TakesWords port owner part) :
    (b.readPortWord port).1 = (PortDevice.getWord part port).1 ∧
      Replaced owner (PortDevice.getWord part port).2 b (b.readPortWord port).2 := by
  obtain ⟨i, below, rfl, rfl, device⟩ := h.wordDevice
  rw [PcBus.readPortWord, device]
  exact ⟨rfl, replaced_attached b below _⟩

theorem TakesWords.writePortWord (h : b.TakesWords port owner part) (value : UInt16) :
    Replaced owner (PortDevice.setWord part port value) b (b.writePortWord port value) := by
  obtain ⟨i, below, rfl, rfl, device⟩ := h.wordDevice
  rw [PcBus.writePortWord, device]
  exact replaced_attached b below _

/-- Accesses of a port that has an owner are accesses of the owner. -/
structure RoutesOwned (b : PcBus δ) (port : UInt16) (owner : PortOwner) (part : PortPart δ) :
    Prop where
  found : b.part? owner = some part
  reads : (Bus.readPort b port).1 = (PortDevice.getByte part port).1
  read : Replaced owner (PortDevice.getByte part port).2 b (Bus.readPort b port).2
  write : ∀ value, Replaced owner (PortDevice.setByte part port value) b (Bus.writePort b port value)
  readsWord : PortDevice.supportsWord part = true →
    (Bus.readPortWord b port).1 = (PortDevice.getWord part port).1
  readWord : PortDevice.supportsWord part = true →
    Replaced owner (PortDevice.getWord part port).2 b (Bus.readPortWord b port).2
  writeWord : PortDevice.supportsWord part = true →
    ∀ value, Replaced owner (PortDevice.setWord part port value) b (Bus.writePortWord b port value)

/-- A port without an owner reads as zero, and nothing becomes of what is written. -/
structure Unowned (b : PcBus δ) (port : UInt16) : Prop where
  reads : (Bus.readPort b port).1 = 0
  read : (Bus.readPort b port).2 = b
  write : ∀ value, Bus.writePort b port value = b

/-- A word of a port is a byte of the port and then one of the next port. -/
structure Bytewise (b : PcBus δ) (port : UInt16) : Prop where
  reads : (Bus.readPortWord b port).1 =
    wordOfBytes (Bus.readPort b port).1 (Bus.readPort (Bus.readPort b port).2 (port + 1)).1
  read : (Bus.readPortWord b port).2 = (Bus.readPort (Bus.readPort b port).2 (port + 1)).2
  write : ∀ value, Bus.writePortWord b port value =
    Bus.writePort (Bus.writePort b port (lowByte value)) (port + 1) (highByte value)

theorem routesOwned_of_owner (owned : b.ports.owner? port = some owner)
    (found : b.part? owner = some part) : b.RoutesOwned port owner part := by
  have read : Bus.readPort b port = b.getOwned owner port := by
    change b.readPort port = _
    rw [readPort, owned]
  have write (value : UInt8) : Bus.writePort b port value = b.setOwned owner port value := by
    change b.writePort port value = _
    rw [writePort, owned]
  have words (takes : PortDevice.supportsWord part = true) : b.TakesWords port owner part :=
    ⟨owned, found, takes⟩
  have reads := getOwned_replaces found port
  rw [← read] at reads
  exact
    { found
      reads := reads.1
      read := reads.2
      write := fun value => write value ▸ setOwned_replaces found port value
      readsWord := fun takes => (words takes).readPortWord.1
      readWord := fun takes => (words takes).readPortWord.2
      writeWord := fun takes => (words takes).writePortWord }

theorem unowned_of_none (free : b.ports.owner? port = none) : b.Unowned port := by
  have read : Bus.readPort b port = (0, b) := by
    change b.readPort port = _
    rw [readPort, free]
  refine ⟨by rw [read], by rw [read], fun value => ?_⟩
  change b.writePort port value = b
  rw [writePort, free]

theorem bytewise_of_bytes (bytes : ∀ owner part, ¬ b.TakesWords port owner part) :
    b.Bytewise port := by
  have read : Bus.readPortWord b port =
      (wordOfBytes (b.readPort port).1 ((b.readPort port).2.readPort (port + 1)).1,
        ((b.readPort port).2.readPort (port + 1)).2) := by
    change b.readPortWord port = _
    rw [readPortWord, wordDevice?_eq_none bytes]
  refine ⟨congrArg Prod.fst read, congrArg Prod.snd read, fun value => ?_⟩
  change b.writePortWord port value = _
  rw [writePortWord, wordDevice?_eq_none bytes]
  rfl

theorem sameWiring_readPort (b : PcBus δ) (port : UInt16) : SameWiring b (b.readPort port).2 := by
  rw [readPort]
  split
  next owner _ =>
    cases owner with
    | pic | pit => exact ⟨rfl, rfl⟩
    | attached i =>
        rw [getOwned]
        split
        next below => exact b.sameWiring_set below _
        next => exact ⟨rfl, rfl⟩
  next => exact ⟨rfl, rfl⟩

theorem sameWiring_writePort (b : PcBus δ) (port : UInt16) (value : UInt8) :
    SameWiring b (b.writePort port value) := by
  rw [writePort]
  split
  next owner _ =>
    cases owner with
    | pic | pit => exact ⟨rfl, rfl⟩
    | attached i =>
        rw [setOwned]
        split
        next below => exact b.sameWiring_set below _
        next => exact ⟨rfl, rfl⟩
  next => exact ⟨rfl, rfl⟩

theorem sameWiring_readPortWord (b : PcBus δ) (port : UInt16) :
    SameWiring b (b.readPortWord port).2 := by
  rw [readPortWord]
  split
  next i _ => exact b.sameWiring_set i.isLt _
  next => exact (b.sameWiring_readPort port).trans (sameWiring_readPort _ _)

theorem sameWiring_writePortWord (b : PcBus δ) (port value : UInt16) :
    SameWiring b (b.writePortWord port value) := by
  rw [writePortWord]
  split
  next i _ => exact b.sameWiring_set i.isLt _
  next => exact (b.sameWiring_writePort port _).trans (sameWiring_writePort _ _ _)

/-- An operation leaves the wiring alone, unless it attaches a device. -/
theorem perform_cases (b : PcBus δ) (op : Op δ) : SameWiring b (b.perform op) ∨
    ∃ device, op = .attach device ∧ b.firstClaimed (PortDevice.ports device) = none ∧
      b.perform op = b.withDevice device := by
  cases op with
  | attach device =>
      cases claimed : b.firstClaimed (PortDevice.ports device) with
      | none =>
          refine Or.inr ⟨device, rfl, claimed, ?_⟩
          rw [perform, attach_of_free claimed]
          rfl
      | some conflict =>
          rw [perform, attach_of_taken claimed]
          exact Or.inl ⟨rfl, rfl⟩
  | readPort port => exact Or.inl (b.sameWiring_readPort port)
  | writePort port value => exact Or.inl (b.sameWiring_writePort port value)
  | readPortWord port => exact Or.inl (b.sameWiring_readPortWord port)
  | writePortWord port value => exact Or.inl (b.sameWiring_writePortWord port value)
  | writeByte | writeWord | loadBlock | pendingIrq | endOfInterrupt | tick | raise | resetChips =>
      exact Or.inl ⟨rfl, rfl⟩

theorem Wired.perform (wired : b.Wired) (op : Op δ) : (b.perform op).Wired := by
  rcases b.perform_cases op with same | ⟨device, -, -, joined⟩
  · exact wired.congr same
  · rw [joined]
    exact wired.withDevice device

theorem wired_after (ops : List (Op δ)) : (after ops).Wired :=
  List.foldlRecOn (motive := Wired) ops PcBus.perform wired_start
    fun _ wired op _ => wired.perform op

theorem owner?_perform (owned : b.ports.owner? port = some owner) (op : Op δ) :
    (b.perform op).ports.owner? port = some owner := by
  rcases b.perform_cases op with same | ⟨device, -, -, joined⟩
  · rwa [same.ports]
  · rw [joined, withDevice, PortMap.owner?_claim, owned]
    rfl

theorem owner?_foldl_perform (owned : b.ports.owner? port = some owner) (ops : List (Op δ)) :
    (ops.foldl PcBus.perform b).ports.owner? port = some owner :=
  List.foldlRecOn (motive := fun b : PcBus δ => b.ports.owner? port = some owner) ops PcBus.perform
    owned fun _ owned op _ => owner?_perform owned op

/-- A device is attached unless one of its ports has an owner; then the first such port is named,
with its owner, and nothing changes. -/
structure Attaches (b : PcBus δ) (device : δ) : Prop where
  fails_iff : (∃ conflict, b.attach device = .error conflict) ↔
    ∃ port ∈ PortDevice.ports device, ∃ owner, b.ports.owner? port = some owner
  conflict_iff : ∀ conflict, b.attach device = .error conflict ↔
    b.FirstTaken (PortDevice.ports device) conflict
  refused : ∀ conflict, b.attach device = .error conflict → b.perform (.attach device) = b
  joins : ∀ d, b.attach device = .ok d → Joins device b d

theorem Wired.attaches (wired : b.Wired) (device : δ) : b.Attaches device where
  fails_iff := attach_fails_iff
  conflict_iff _ := attach_eq_error_iff wired
  refused conflict failed := by
    rw [PcBus.perform, failed]
    rfl
  joins d done := by
    cases claimed : b.firstClaimed (PortDevice.ports device) with
    | none =>
        rw [attach_of_free claimed, Except.ok.injEq] at done
        exact done ▸ joins_withDevice claimed
    | some conflict =>
        rw [attach_of_taken claimed] at done
        cases done

/-- The accesses of a port go where they belong. -/
structure Routes (b : PcBus δ) (port : UInt16) : Prop where
  owned : ∀ owner, b.ports.owner? port = some owner → ∃ part, b.RoutesOwned port owner part
  unowned : b.ports.owner? port = none → b.Unowned port
  bytewise : (∀ owner part, ¬ b.TakesWords port owner part) → b.Bytewise port

theorem Wired.routes (wired : b.Wired) (port : UInt16) : b.Routes port where
  owned _ owned :=
    (wired.exists_part_of_owner owned).imp fun _ found => routesOwned_of_owner owned found
  unowned := unowned_of_none
  bytewise := bytewise_of_bytes

/-- Whatever is attached to a bus and done with it, in any order: each port that has an owner has one
that exists and keeps it, the chips on board have theirs, no device is attached in part, and each
access of a port goes to the owner of the port. -/
theorem ports_keep_owners (ops : List (Op δ)) :
    (after ops).Wired ∧
      (∀ more port owner, (after ops).ports.owner? port = some owner →
        (after (ops ++ more)).ports.owner? port = some owner) ∧
      (∀ device, (after ops).Attaches device) ∧
      ∀ port, (after ops).Routes port := by
  have wired := wired_after ops
  refine ⟨wired, fun more port owner owned => ?_, wired.attaches, wired.routes⟩
  rw [after, List.foldl_append]
  exact owner?_foldl_perform owned more

end PcBus
end RealMode
