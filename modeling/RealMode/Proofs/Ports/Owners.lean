import RealMode.PcBus

/-!
Who owns which port. Claims only add entries for ports that have none, so that no port changes hands;
a device is attached with all of its ports or, if one of them is taken, not at all.
-/

namespace RealMode
namespace PortMap

variable {m : PortMap} {owner : PortOwner}

theorem owner?_eq_none_iff {port : UInt16} : m.owner? port = none ↔ port ∉ m.map Prod.fst := by
  rw [owner?, List.lookup_eq_none_iff, List.mem_map, not_exists]
  refine forall_congr' fun entry => ?_
  rw [not_and, bne_iff_ne, ne_comm]

theorem owner?_append_one (m : PortMap) (port other : UInt16) (owner : PortOwner) :
    owner? (m ++ [(port, owner)]) other =
      (m.owner? other).or (if other = port then some owner else none) := by
  rw [owner?, List.lookup_append, List.lookup_cons, List.lookup_nil]
  by_cases same : other = port
  · rw [if_pos same, beq_iff_eq.2 same]
    rfl
  · rw [if_neg same, beq_eq_false_iff_ne.2 same]
    rfl

/-- Of the ports claimed those without an owner get the new one. -/
theorem owner?_claim (m : PortMap) (owner : PortOwner) (ports : List UInt16) (port : UInt16) :
    (m.claim owner ports).owner? port =
      (m.owner? port).or (if port ∈ ports then some owner else none) := by
  induction ports generalizing m with
  | nil => rw [claim, if_neg List.not_mem_nil, Option.or_none]
  | cons first rest ih =>
      rw [claim, ih]
      by_cases same : port = first
      · subst same
        rw [if_pos List.mem_cons_self]
        split
        next taken =>
          obtain ⟨owner, found⟩ := Option.isSome_iff_exists.1 taken
          rw [found]
          rfl
        next => rw [owner?_append_one, if_pos rfl, Option.or_assoc]; rfl
      · have others : port ∈ first :: rest ↔ port ∈ rest := by
          rw [List.mem_cons, or_iff_right same]
        simp only [others]
        split
        next => rfl
        next => rw [owner?_append_one, if_neg same, Option.or_none]

theorem nodup_claim (once : (m.map Prod.fst).Nodup) (ports : List UInt16) :
    ((m.claim owner ports).map Prod.fst).Nodup := by
  induction ports generalizing m with
  | nil => exact once
  | cons first rest ih =>
      rw [claim]
      refine ih ?_
      split
      next => exact once
      next free =>
        rw [Bool.not_eq_true, Option.isSome_eq_false_iff, Option.isNone_iff_eq_none,
          owner?_eq_none_iff] at free
        rw [List.map_append, List.nodup_append]
        refine ⟨once, List.pairwise_singleton _ _, fun port member other new => ?_⟩
        rintro rfl
        rw [List.mem_singleton.1 new] at member
        exact free member

theorem mem_claim {ports : List UInt16} {entry : UInt16 × PortOwner}
    (member : entry ∈ m.claim owner ports) : entry ∈ m ∨ entry.2 = owner := by
  induction ports generalizing m with
  | nil => exact Or.inl member
  | cons first rest ih =>
      rw [claim] at member
      split at member
      next => exact ih member
      next =>
        refine (ih member).elim (fun old => ?_) Or.inr
        exact (List.mem_append.1 old).imp_right fun new => by rw [List.mem_singleton.1 new]

end PortMap

/-- What can own a port, as it is. -/
inductive PortPart (δ : Type) where
  | pic (chip : Pic)
  | pit (chip : Pit)
  | attached (device : δ)

namespace PcBus

variable {δ : Type}

/-- The owner of ports. There is none by the number of a device that has not been attached. -/
def part? (b : PcBus δ) : PortOwner → Option (PortPart δ)
  | .pic => some (.pic b.pic)
  | .pit => some (.pit b.pit)
  | .attached i => b.devices[i]?.map .attached

/-- Each port has one owner, which exists, and the chips on board keep theirs. -/
structure Wired (b : PcBus δ) : Prop where
  once : (b.ports.map Prod.fst).Nodup
  pic : ∀ port ∈ [0x20, 0x21], b.ports.owner? port = some .pic
  pit : ∀ port ∈ [0x40, 0x41, 0x42, 0x43], b.ports.owner? port = some .pit
  exists_part : ∀ entry ∈ b.ports, ∃ part, b.part? entry.2 = some part

/-- As many devices and the same owners of ports. -/
structure SameWiring (b d : PcBus δ) : Prop where
  ports : d.ports = b.ports
  size : d.devices.size = b.devices.size

theorem SameWiring.trans {b d e : PcBus δ} (h : SameWiring b d) (g : SameWiring d e) :
    SameWiring b e :=
  ⟨g.ports.trans h.ports, g.size.trans h.size⟩

theorem exists_part_attached {b : PcBus δ} {i : Nat} :
    (∃ part, b.part? (.attached i) = some part) ↔ i < b.devices.size := by
  constructor
  · rintro ⟨part, found⟩
    obtain ⟨device, at_i, -⟩ := Option.map_eq_some_iff.1 found
    exact (Array.getElem?_eq_some_iff.1 at_i).1
  · intro below
    exact ⟨.attached b.devices[i], by rw [part?, Array.getElem?_eq_getElem below]; rfl⟩

theorem exists_part_mono {b d : PcBus δ} (more : b.devices.size ≤ d.devices.size)
    {owner : PortOwner} (found : ∃ part, b.part? owner = some part) :
    ∃ part, d.part? owner = some part := by
  cases owner with
  | pic => exact ⟨.pic d.pic, rfl⟩
  | pit => exact ⟨.pit d.pit, rfl⟩
  | attached i =>
      exact exists_part_attached.2 (Nat.lt_of_lt_of_le (exists_part_attached.1 found) more)

theorem Wired.exists_part_of_owner {b : PcBus δ} (wired : b.Wired) {port : UInt16}
    {owner : PortOwner} (owned : b.ports.owner? port = some owner) :
    ∃ part, b.part? owner = some part := by
  obtain ⟨before, after, entries, -⟩ := List.lookup_eq_some_iff.1 owned
  have member : (port, owner) ∈ b.ports := entries ▸ List.mem_append_right _ List.mem_cons_self
  exact wired.exists_part _ member

theorem Wired.congr {b d : PcBus δ} (h : b.Wired) (same : SameWiring b d) : d.Wired where
  once := same.ports ▸ h.once
  pic := same.ports ▸ h.pic
  pit := same.ports ▸ h.pit
  exists_part entry member := by
    rw [same.ports] at member
    exact exists_part_mono (Nat.le_of_eq same.size.symm) (h.exists_part entry member)

theorem wired_start : ({} : PcBus δ).Wired where
  once := (by decide : (PortMap.onBoard.map Prod.fst).Nodup)
  pic := by
    rw [List.forall_mem_cons, List.forall_mem_singleton]
    exact ⟨rfl, rfl⟩
  pit := by
    rw [List.forall_mem_cons, List.forall_mem_cons, List.forall_mem_cons, List.forall_mem_singleton]
    exact ⟨rfl, rfl, rfl, rfl⟩
  exists_part entry member := by
    have chips : ∀ entry ∈ PortMap.onBoard, entry.2 = .pic ∨ entry.2 = .pit := by decide
    rcases chips entry member with chip | chip <;> rw [chip] <;> exact ⟨_, rfl⟩

variable [PortDevice δ]

instance : PortDevice (PortPart δ) where
  name
    | .pic chip => PortDevice.name chip
    | .pit chip => PortDevice.name chip
    | .attached device => PortDevice.name device
  ports
    | .pic chip => PortDevice.ports chip
    | .pit chip => PortDevice.ports chip
    | .attached device => PortDevice.ports device
  getByte
    | .pic chip, port => (PortDevice.getByte chip port).map id .pic
    | .pit chip, port => (PortDevice.getByte chip port).map id .pit
    | .attached device, port => (PortDevice.getByte device port).map id .attached
  setByte
    | .pic chip, port, value => .pic (PortDevice.setByte chip port value)
    | .pit chip, port, value => .pit (PortDevice.setByte chip port value)
    | .attached device, port, value => .attached (PortDevice.setByte device port value)
  supportsWord
    | .pic chip => PortDevice.supportsWord chip
    | .pit chip => PortDevice.supportsWord chip
    | .attached device => PortDevice.supportsWord device
  getWord
    | .pic chip, port => (PortDevice.getWord chip port).map id .pic
    | .pit chip, port => (PortDevice.getWord chip port).map id .pit
    | .attached device, port => (PortDevice.getWord device port).map id .attached
  setWord
    | .pic chip, port, value => .pic (PortDevice.setWord chip port value)
    | .pit chip, port, value => .pit (PortDevice.setWord chip port value)
    | .attached device, port, value => .attached (PortDevice.setWord device port value)

theorem ownerName_of_part {b : PcBus δ} {owner : PortOwner} {part : PortPart δ}
    (found : b.part? owner = some part) : b.ownerName owner = PortDevice.name part := by
  cases owner with
  | pic | pit =>
      cases found
      rfl
  | attached i =>
      obtain ⟨device, at_i, rfl⟩ := Option.map_eq_some_iff.1 found
      rw [ownerName, at_i]
      rfl

theorem firstClaimed_eq_none_iff {b : PcBus δ} {ports : List UInt16} :
    b.firstClaimed ports = none ↔ ∀ port ∈ ports, b.ports.owner? port = none := by
  induction ports with
  | nil => exact ⟨fun _ _ => nofun, fun _ => rfl⟩
  | cons first rest ih =>
      rw [firstClaimed, List.forall_mem_cons]
      cases b.ports.owner? first with
      | none => exact ih.trans (and_iff_right rfl).symm
      | some owner => exact ⟨nofun, fun free => nomatch free.1⟩

/-- The first of some ports that has an owner, with its owner's name. -/
structure FirstTaken (b : PcBus δ) (ports : List UInt16) (conflict : PortConflict) : Prop where
  first : ∃ free rest, ports = free ++ conflict.port :: rest ∧
    ∀ port ∈ free, b.ports.owner? port = none
  owner : ∃ owner part, b.ports.owner? conflict.port = some owner ∧ b.part? owner = some part ∧
    conflict.owner = PortDevice.name part

theorem firstTaken_cons_of_free {b : PcBus δ} {first : UInt16} (free : b.ports.owner? first = none)
    {rest : List UInt16} {conflict : PortConflict} :
    b.FirstTaken (first :: rest) conflict ↔ b.FirstTaken rest conflict := by
  constructor
  · rintro ⟨⟨before, after, ports, unowned⟩, owner, part, owned, found⟩
    cases before with
    | nil =>
        obtain ⟨rfl, -⟩ := List.cons.inj ports
        rw [free] at owned
        cases owned
    | cons other before =>
        obtain ⟨-, rest⟩ := List.cons.inj ports
        exact ⟨⟨before, after, rest, (List.forall_mem_cons.1 unowned).2⟩, owner, part, owned, found⟩
  · rintro ⟨⟨before, after, rfl, unowned⟩, owner⟩
    exact ⟨⟨first :: before, after, rfl, List.forall_mem_cons.2 ⟨free, unowned⟩⟩, owner⟩

theorem firstTaken_cons_of_owned {b : PcBus δ} {first : UInt16} {owner : PortOwner}
    {part : PortPart δ} (owned : b.ports.owner? first = some owner)
    (found : b.part? owner = some part) {rest : List UInt16} {conflict : PortConflict} :
    b.FirstTaken (first :: rest) conflict ↔ conflict = ⟨first, PortDevice.name part⟩ := by
  constructor
  · rintro ⟨⟨before, after, ports, unowned⟩, other, otherPart, taken, foundToo, name⟩
    cases before with
    | nil =>
        obtain ⟨rfl, -⟩ := List.cons.inj ports
        rw [owned, Option.some.injEq] at taken
        rw [← taken, found, Option.some.injEq] at foundToo
        rw [foundToo, ← name]
    | cons other before =>
        obtain ⟨rfl, -⟩ := List.cons.inj ports
        rw [(List.forall_mem_cons.1 unowned).1] at owned
        cases owned
  · rintro rfl
    exact ⟨⟨[], rest, rfl, fun _ => nofun⟩, owner, part, owned, found, rfl⟩

theorem firstClaimed_eq_some_iff {b : PcBus δ} (wired : b.Wired) {ports : List UInt16}
    {conflict : PortConflict} :
    b.firstClaimed ports = some conflict ↔ b.FirstTaken ports conflict := by
  induction ports with
  | nil =>
      refine ⟨nofun, fun ⟨⟨before, after, ports, _⟩, _⟩ => ?_⟩
      cases before <;> cases ports
  | cons first rest ih =>
      rw [firstClaimed]
      cases owned : b.ports.owner? first with
      | none => exact ih.trans (firstTaken_cons_of_free owned).symm
      | some owner =>
          obtain ⟨part, found⟩ := wired.exists_part_of_owner owned
          rw [firstTaken_cons_of_owned owned found, ← ownerName_of_part found]
          exact Option.some_inj.trans eq_comm

/-- One device more, which owns the ports that it claims, and nothing else is new. -/
structure Joins (device : δ) (b d : PcBus δ) : Prop where
  ports : ∀ port, d.ports.owner? port =
    if port ∈ PortDevice.ports device then some (.attached b.devices.size)
    else b.ports.owner? port
  part : d.part? (.attached b.devices.size) = some (.attached device)
  others : ∀ owner, owner ≠ .attached b.devices.size → d.part? owner = b.part? owner
  memory : d.memory = b.memory

/-- What `attach` makes of a bus whose ports the device may claim. -/
def withDevice (b : PcBus δ) (device : δ) : PcBus δ :=
  { b with
    ports := b.ports.claim (.attached b.devices.size) (PortDevice.ports device)
    devices := b.devices.push device }

theorem attach_of_taken {b : PcBus δ} {device : δ} {conflict : PortConflict}
    (taken : b.firstClaimed (PortDevice.ports device) = some conflict) :
    b.attach device = .error conflict := by
  rw [attach, taken]

theorem attach_of_free {b : PcBus δ} {device : δ}
    (free : b.firstClaimed (PortDevice.ports device) = none) :
    b.attach device = .ok (b.withDevice device) := by
  rw [attach, free]
  rfl

theorem attach_eq_error_iff {b : PcBus δ} (wired : b.Wired) {device : δ}
    {conflict : PortConflict} :
    b.attach device = .error conflict ↔ b.FirstTaken (PortDevice.ports device) conflict := by
  rw [← firstClaimed_eq_some_iff wired]
  cases claimed : b.firstClaimed (PortDevice.ports device) with
  | none =>
      rw [attach_of_free claimed]
      exact ⟨nofun, nofun⟩
  | some other =>
      rw [attach_of_taken claimed, Except.error.injEq, Option.some.injEq]

theorem attach_fails_iff {b : PcBus δ} {device : δ} :
    (∃ conflict, b.attach device = .error conflict) ↔
      ∃ port ∈ PortDevice.ports device, ∃ owner, b.ports.owner? port = some owner := by
  cases claimed : b.firstClaimed (PortDevice.ports device) with
  | none =>
      have free := firstClaimed_eq_none_iff.1 claimed
      rw [attach_of_free claimed]
      refine ⟨fun ⟨_, failed⟩ => (nomatch failed), fun ⟨port, member, owner, owned⟩ => ?_⟩
      rw [free port member] at owned
      cases owned
  | some conflict =>
      rw [attach_of_taken claimed]
      refine ⟨fun _ => Classical.byContradiction fun free => ?_, fun _ => ⟨conflict, rfl⟩⟩
      have none : b.firstClaimed (PortDevice.ports device) = none :=
        firstClaimed_eq_none_iff.2 fun port member =>
          Option.eq_none_iff_forall_ne_some.2 fun owner owned =>
            free ⟨port, member, owner, owned⟩
      rw [claimed] at none
      cases none

theorem part?_withDevice (b : PcBus δ) (device : δ) (owner : PortOwner) :
    (b.withDevice device).part? owner =
      if owner = .attached b.devices.size then some (.attached device) else b.part? owner := by
  cases owner with
  | pic | pit => rfl
  | attached i =>
      rw [part?, withDevice, Array.getElem?_push]
      by_cases new : i = b.devices.size
      · rw [if_pos new, if_pos (congrArg _ new)]
        rfl
      · rw [if_neg new, if_neg (mt PortOwner.attached.inj new)]
        rfl

theorem joins_withDevice {b : PcBus δ} {device : δ}
    (free : b.firstClaimed (PortDevice.ports device) = none) :
    Joins device b (b.withDevice device) where
  ports port := by
    rw [withDevice, PortMap.owner?_claim]
    split
    next claimed => rw [firstClaimed_eq_none_iff.1 free port claimed, Option.none_or]
    next => exact Option.or_none
  part := by rw [part?_withDevice, if_pos rfl]
  others owner other := by rw [part?_withDevice, if_neg other]
  memory := rfl

/-- A device that joins keeps the wiring: the ports on board have owners already. -/
theorem Wired.withDevice {b : PcBus δ} (wired : b.Wired) (device : δ) :
    (b.withDevice device).Wired where
  once := PortMap.nodup_claim wired.once _
  pic port member := by rw [PcBus.withDevice, PortMap.owner?_claim, wired.pic port member]; rfl
  pit port member := by rw [PcBus.withDevice, PortMap.owner?_claim, wired.pit port member]; rfl
  exists_part entry member := by
    rcases PortMap.mem_claim member with old | new
    · refine exists_part_mono ?_ (wired.exists_part entry old)
      rw [PcBus.withDevice, Array.size_push]
      exact Nat.le_succ _
    · rw [new, exists_part_attached, PcBus.withDevice, Array.size_push]
      exact Nat.lt_succ_self _

end PcBus
end RealMode
