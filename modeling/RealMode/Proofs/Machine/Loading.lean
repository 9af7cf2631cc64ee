import RealMode.Proofs.Machine.History
import RealMode.Proofs.Memory.Blocks

/-!
What becomes of an image that is placed. All that is asked of it is asked before its first byte is
written: run in place, where what has been written before an error stays written, a refused image
leaves the machine as it was. An accepted one takes its places, no more and no less, and none of
them is beyond the last address, from where the writer would go on at the interrupt table.
-/

namespace RealMode

/-- A condition on an image, with the error it is refused by. -/
structure Check where
  holds : Bool
  error : LoadError

/-- What is asked of a program. -/
def programChecks (segment : UInt32) (program : ByteArray) : List Check :=
  [⟨segment.toNat ≤ 0xFFFF, .segmentOutOfRange segment⟩,
    ⟨0 < program.size, .emptyImage⟩,
    ⟨16 * segment.toNat + program.size ≤ 0x100000, .programTooLarge (segment <<< 4) program.size⟩]

/-- What is asked of a ROM image. -/
def biosChecks (image : ByteArray) : List Check :=
  [⟨0 < image.size, .emptyImage⟩, ⟨image.size ≤ 0x100000, .biosTooLarge image.size⟩]

/-- The error of the first check that fails. -/
def firstFailing (checks : List Check) : Option LoadError :=
  (checks.find? (!·.holds)).map (·.error)

/-- A result behind checks. -/
def guarded {α : Type} (checks : List Check) (done : α) : Except LoadError α :=
  match firstFailing checks with
  | none => .ok done
  | some e => .error e

section

variable {α β : Type} {checks : List Check} {done : α} {e : LoadError}

theorem firstFailing_eq_none_iff :
    firstFailing checks = none ↔ ∀ check ∈ checks, check.holds = true := by
  rw [firstFailing, Option.map_eq_none_iff, List.find?_eq_none]
  simp only [Bool.not_eq_true', Bool.not_eq_false]

theorem guarded_cons (p : Prop) [Decidable p] (e : LoadError) (checks : List Check) (done : α) :
    guarded (⟨p, e⟩ :: checks) done = if p then guarded checks done else .error e := by
  rw [guarded, firstFailing, List.find?_cons]
  by_cases h : p
  · simp only [h, decide_true, Bool.not_true, if_true]
    rfl
  · simp only [h, decide_false, Bool.not_false, if_false]
    rfl

theorem guarded_eq_ok_iff {n : α} :
    guarded checks done = .ok n ↔ (∀ check ∈ checks, check.holds = true) ∧ n = done := by
  rw [guarded, ← firstFailing_eq_none_iff]
  cases firstFailing checks with
  | none => exact ⟨fun h => ⟨rfl, (Except.ok.inj h).symm⟩, fun h => congrArg _ h.2.symm⟩
  | some _ => exact ⟨nofun, fun h => nomatch h.1⟩

theorem guarded_eq_error_iff : guarded checks done = .error e ↔ firstFailing checks = some e := by
  rw [guarded]
  cases firstFailing checks with
  | none => exact ⟨nofun, nofun⟩
  | some _ =>
      exact ⟨fun h => congrArg some (Except.error.inj h), fun h => congrArg _ (Option.some.inj h)⟩

theorem map_guarded (checks : List Check) (done : α) (f : α → β) :
    (guarded checks done).map f = guarded checks (f done) := by
  rw [guarded, guarded]
  cases firstFailing checks <;> rfl

end

theorem programChecks_hold_iff {segment : UInt32} {program : ByteArray} :
    (∀ check ∈ programChecks segment program, check.holds = true) ↔
      segment.toNat ≤ 0xFFFF ∧ program.size ≠ 0 ∧
        16 * segment.toNat + program.size ≤ 0x100000 := by
  simp only [programChecks, List.forall_mem_cons, decide_eq_true_eq, List.not_mem_nil,
    false_imp_iff, implies_true, and_true, Nat.pos_iff_ne_zero]

/-- In the last segment there is room for sixteen bytes. -/
example : firstFailing (programChecks 0xFFFF ⟨Array.replicate 16 0x90⟩) = none ∧
    firstFailing (programChecks 0xFFFF ⟨Array.replicate 17 0x90⟩) =
      some (.programTooLarge 0xFFFF0 17) := by
  decide

theorem biosChecks_hold_iff {image : ByteArray} :
    (∀ check ∈ biosChecks image, check.holds = true) ↔ 1 ≤ image.size ∧ image.size ≤ 0x100000 := by
  simp only [biosChecks, List.forall_mem_cons, decide_eq_true_eq, List.not_mem_nil, false_imp_iff,
    implies_true, and_true, Nat.succ_le_iff]

namespace Cpu

variable {β : Type} [Bus β]

theorem loadProgram_eq_guarded (c : Cpu β) (segment : UInt32) (program : ByteArray) :
    c.loadProgram segment program = guarded (programChecks segment program)
      { c with bus := Bus.loadBlock c.bus (segment <<< 4) program } := by
  have range : segment > 0xFFFF ↔ ¬ segment.toNat ≤ 0xFFFF :=
    UInt32.lt_iff_toNat_lt.trans Nat.not_le.symm
  have filled : program.size = 0 ↔ ¬ 0 < program.size := by omega
  rw [loadProgram, programChecks, guarded_cons, guarded_cons, guarded_cons]
  simp only [range, filled, ite_not]
  by_cases small : segment.toNat ≤ 0xFFFF
  · have inside : (segment <<< 4).toNat + program.size > memorySize ↔
        ¬ 16 * segment.toNat + program.size ≤ 0x100000 := by
      rw [toNat_segmentStart small, Nat.not_le]
      exact Iff.rfl
    simp only [small, if_true, inside, ite_not]
    rfl
  · simp only [small, if_false]

theorem loadBootstrapped_eq_map (c : Cpu β) (segment : UInt32) (program : ByteArray) :
    c.loadBootstrapped segment program = (c.loadProgram segment program).map fun d =>
      { d with bus := Bus.loadBlock d.bus bootVector (bootJump segment.toUInt16) } := by
  rw [loadBootstrapped]
  cases c.loadProgram segment program <;> rfl

theorem loadBios_eq_guarded (c : Cpu β) (image : ByteArray) :
    c.loadBios image = guarded (biosChecks image)
      { c with bus := Bus.loadBlock c.bus (memorySize - image.size).toUInt32 image } := by
  have filled : image.size = 0 ↔ ¬ 0 < image.size := by omega
  have inside : image.size > memorySize ↔ ¬ image.size ≤ 0x100000 := Nat.not_le.symm
  rw [loadBios, biosChecks, guarded_cons, guarded_cons]
  simp only [filled, inside, ite_not]
  rfl

end Cpu

namespace Machine

variable {δ : Type}

/-- A loader that changes a machine in place: what it has done before an error stays done. -/
abbrev InPlace (δ : Type) :=
  ExceptT LoadError (StateM (Machine δ))

namespace InPlace

/-- The result, and the machine that is left. -/
def outcome (loader : InPlace δ Unit) (m : Machine δ) : Except LoadError Unit × Machine δ :=
  loader.run.run m

theorem outcome_bind (first second : InPlace δ Unit) (m : Machine δ) :
    outcome (first >>= fun _ => second) m =
      match outcome first m with
      | (.ok _, n) => outcome second n
      | (.error e, n) => (.error e, n) := by
  change (match outcome first m with | (a, n) => ExceptT.bindCont (fun _ => second) a n) = _
  rcases outcome first m with ⟨_ | _, n⟩ <;> rfl

def demand (check : Check) : InPlace δ Unit :=
  if check.holds then pure () else throw check.error

/-- The loader leaves the machine of a result, and if that is an error the machine before. -/
def Mirrors (loader : InPlace δ Unit) (m : Machine δ) (r : Except LoadError (Machine δ)) : Prop :=
  outcome loader m = (r.map fun _ => (), r.toOption.getD m)

theorem mirrors_demands (checks : List Check) (m : Machine δ) :
    Mirrors (checks.forM demand) m (guarded checks m) := by
  induction checks with
  | nil => rfl
  | cons check checks ih =>
      obtain ⟨holds, e⟩ := check
      rw [Mirrors] at ih ⊢
      change outcome (demand ⟨holds, e⟩ >>= fun _ => checks.forM demand) m = _
      rw [outcome_bind]
      cases holds with
      | false => rfl
      | true => exact ih

end InPlace

/-- `n` is `m` with the bytes of an image from a place on, in the ROM window or not, and nothing
else is different. -/
structure Imaged (m n : Machine δ) (start : Nat) (image : ByteArray) : Prop where
  inside : start + image.size ≤ 0x100000
  bytes : ∀ i (h : i < image.size), n.bus.memory.get (start + i).toUInt32 = image[i]
  rest : ∀ other < 0x100000, other < start ∨ start + image.size ≤ other →
    n.bus.memory.get other.toUInt32 = m.bus.memory.get other.toUInt32
  machine : n = m.mapBus fun b => { b with memory := n.bus.memory }

/-- An image that ends where the address space ends has its last byte there. -/
theorem Imaged.last {m n : Machine δ} {image : ByteArray}
    (imaged : Imaged m n (0x100000 - image.size) image) (filled : 1 ≤ image.size) :
    ∃ h : image.size - 1 < image.size, n.bus.memory.get 0xFFFFF = image[image.size - 1] := by
  have inside : image.size ≤ 0x100000 := Nat.le_of_add_left_le imaged.inside
  have place : 0x100000 - image.size + (image.size - 1) = 0xFFFFF := by omega
  have byte := imaged.bytes (image.size - 1) (by omega)
  rw [place] at byte
  exact ⟨by omega, byte⟩

variable [PortDevice δ]

/-- With an image in memory from an address on. -/
def place (m : Machine δ) (address : UInt32) (image : ByteArray) : Machine δ :=
  m.mapBus fun b => Bus.loadBlock b address image

theorem loadProgram_eq_guarded (m : Machine δ) (segment : UInt32) (program : ByteArray) :
    m.loadProgram segment program =
      guarded (programChecks segment program) (m.place (segment <<< 4) program) := by
  rw [loadProgram, Cpu.loadProgram_eq_guarded, map_guarded]
  rfl

theorem loadBootstrapped_eq_map (m : Machine δ) (segment : UInt32) (program : ByteArray) :
    m.loadBootstrapped segment program =
      (m.loadProgram segment program).map (·.place bootVector (bootJump segment.toUInt16)) := by
  rw [loadBootstrapped, loadProgram, Cpu.loadBootstrapped_eq_map]
  cases m.cpu.loadProgram segment program <;> rfl

theorem loadBios_eq_guarded (m : Machine δ) (image : ByteArray) :
    m.loadBios image =
      guarded (biosChecks image) (m.place (memorySize - image.size).toUInt32 image) := by
  rw [loadBios, Cpu.loadBios_eq_guarded, map_guarded]
  rfl

namespace InPlace

variable {m : Machine δ} {loader : InPlace δ Unit} {r : Except LoadError (Machine δ)}

def write (address : UInt32) (image : ByteArray) : InPlace δ Unit :=
  modify (·.place address image)

def loadProgram (segment : UInt32) (program : ByteArray) : InPlace δ Unit := do
  (programChecks segment program).forM demand
  write (segment <<< 4) program

def loadBootstrapped (segment : UInt32) (program : ByteArray) : InPlace δ Unit := do
  loadProgram segment program
  write bootVector (bootJump segment.toUInt16)

def loadBios (image : ByteArray) : InPlace δ Unit := do
  (biosChecks image).forM demand
  write (memorySize - image.size).toUInt32 image

theorem Mirrors.then_write (mirrors : Mirrors loader m r) (address : UInt32) (image : ByteArray) :
    Mirrors (loader >>= fun _ => write address image) m (r.map (·.place address image)) := by
  rw [Mirrors] at mirrors ⊢
  rw [outcome_bind, mirrors]
  cases r <;> rfl

theorem mirrors_guarded (checks : List Check) (address : UInt32) (image : ByteArray)
    (m : Machine δ) :
    Mirrors (checks.forM demand >>= fun _ => write address image) m
      (guarded checks (m.place address image)) := by
  have written := (mirrors_demands checks m).then_write address image
  rwa [map_guarded] at written

theorem mirrors_loadProgram (m : Machine δ) (segment : UInt32) (program : ByteArray) :
    Mirrors (loadProgram segment program) m (m.loadProgram segment program) := by
  rw [loadProgram_eq_guarded]
  exact mirrors_guarded _ _ _ m

theorem mirrors_loadBootstrapped (m : Machine δ) (segment : UInt32) (program : ByteArray) :
    Mirrors (loadBootstrapped segment program) m (m.loadBootstrapped segment program) := by
  rw [loadBootstrapped_eq_map]
  exact (mirrors_loadProgram m segment program).then_write _ _

theorem mirrors_loadBios (m : Machine δ) (image : ByteArray) :
    Mirrors (loadBios image) m (m.loadBios image) := by
  rw [loadBios_eq_guarded]
  exact mirrors_guarded _ _ _ m

end InPlace

theorem imaged_place (m : Machine δ) {address : UInt32} {image : ByteArray} {start : Nat}
    (here : address.toNat = start) (inside : start + image.size ≤ 0x100000) :
    Imaged m (m.place address image) start image := by
  have size : memorySize = 0x100000 := rfl
  refine ⟨inside, fun i h => ?_, fun other below outside => ?_, rfl⟩
  · have next : (start + i).toUInt32 = address + i.toUInt32 := by
      rw [← here, Nat.toUInt32_eq, UInt32.ofNat_add, UInt32.ofNat_toNat, Nat.toUInt32_eq]
    rw [next]
    exact m.bus.memory.get_loadBlock _ (by omega) h
  · -- The writer goes on at address zero, but an image that ends inside never gets there.
    refine m.bus.memory.get_loadBlock_of_apart _ fun i h same => ?_
    have numbers := congrArg UInt32.toNat same
    rw [Memory.toNat_wrapAddress_add, toNat_wrapAddress, Nat.toUInt32_eq, UInt32.toNat_ofNat',
      size, here] at numbers
    omega

theorem imaged_of_loadProgram {m n : Machine δ} {segment : UInt32} {program : ByteArray}
    (loaded : m.loadProgram segment program = .ok n) :
    Imaged m n (16 * segment.toNat) program := by
  rw [loadProgram_eq_guarded, guarded_eq_ok_iff, programChecks_hold_iff] at loaded
  obtain ⟨⟨small, -, inside⟩, rfl⟩ := loaded
  exact imaged_place m (toNat_segmentStart small) inside

theorem imaged_of_loadBios {m n : Machine δ} {image : ByteArray}
    (loaded : m.loadBios image = .ok n) : Imaged m n (0x100000 - image.size) image := by
  rw [loadBios_eq_guarded, guarded_eq_ok_iff, biosChecks_hold_iff] at loaded
  obtain ⟨⟨filled, small⟩, rfl⟩ := loaded
  have size : memorySize = 0x100000 := rfl
  refine imaged_place m ?_ (by omega)
  rw [Nat.toUInt32_eq, UInt32.toNat_ofNat', size]
  omega

theorem imaged_of_loadBootstrapped {m n : Machine δ} {segment : UInt32} {program : ByteArray}
    (loaded : m.loadBootstrapped segment program = .ok n) :
    ∃ k, m.loadProgram segment program = .ok k ∧
      Imaged k n 0xFFFF0 (bootJump segment.toUInt16) := by
  rw [loadBootstrapped_eq_map] at loaded
  cases placed : m.loadProgram segment program with
  | error e =>
      rw [placed] at loaded
      cases loaded
  | ok k =>
      rw [placed] at loaded
      cases loaded
      have short : 0xFFFF0 + (bootJump segment.toUInt16).size ≤ 0x100000 :=
        show 0xFFFF0 + 5 ≤ 0x100000 by decide
      exact ⟨k, rfl, imaged_place k rfl short⟩

/-- A way to install an image, by its checks, as a loader in place, by its result and as an
operation of the host: it is accepted if all checks hold, and if not the first that fails tells why
and all is as it was. -/
structure AllOrNothing (m : Machine δ) (checks : List Check) (loader : InPlace δ Unit)
    (result : Except LoadError (Machine δ)) (op : Op δ) : Prop where
  accepted : (∃ n, result = .ok n) ↔ ∀ check ∈ checks, check.holds = true
  refused : ∀ e, result = .error e ↔ firstFailing checks = some e
  inPlace : loader.outcome m = (result.map fun _ => (), m.perform op)
  kept : ∀ e, result = .error e → m.perform op = m

theorem AllOrNothing.of_guarded {m n : Machine δ} {checks : List Check} {loader : InPlace δ Unit}
    {result : Except LoadError (Machine δ)} {op : Op δ} (same : result = guarded checks n)
    (mirrors : loader.Mirrors m result) (performs : m.perform op = result.toOption.getD m) :
    AllOrNothing m checks loader result op where
  accepted := by
    rw [same]
    exact ⟨fun ⟨_, done⟩ => (guarded_eq_ok_iff.1 done).1,
      fun hold => ⟨n, guarded_eq_ok_iff.2 ⟨hold, rfl⟩⟩⟩
  refused e := by rw [same, guarded_eq_error_iff]
  inPlace := by rw [performs, ← mirrors]
  kept e failed := by
    rw [performs, failed]
    rfl

theorem allOrNothing_loadProgram (m : Machine δ) (segment : UInt32) (program : ByteArray) :
    AllOrNothing m (programChecks segment program) (.loadProgram segment program)
      (m.loadProgram segment program) (.loadProgram segment program) :=
  .of_guarded (m.loadProgram_eq_guarded segment program)
    (InPlace.mirrors_loadProgram m segment program) rfl

theorem allOrNothing_loadBootstrapped (m : Machine δ) (segment : UInt32) (program : ByteArray) :
    AllOrNothing m (programChecks segment program) (.loadBootstrapped segment program)
      (m.loadBootstrapped segment program) (.loadBootstrapped segment program) := by
  have same := m.loadBootstrapped_eq_map segment program
  rw [loadProgram_eq_guarded, map_guarded] at same
  exact .of_guarded same (InPlace.mirrors_loadBootstrapped m segment program) rfl

theorem allOrNothing_loadBios (m : Machine δ) (image : ByteArray) :
    AllOrNothing m (biosChecks image) (.loadBios image) (m.loadBios image) (.loadBios image) :=
  .of_guarded (m.loadBios_eq_guarded image) (InPlace.mirrors_loadBios m image) rfl

/-- What the three ways to install an image do to a machine. -/
structure Installation (m : Machine δ) (segment : UInt32) (program image : ByteArray) : Prop where
  ofProgram : AllOrNothing m (programChecks segment program) (.loadProgram segment program)
    (m.loadProgram segment program) (.loadProgram segment program)
  ofBootstrapped : AllOrNothing m (programChecks segment program)
    (.loadBootstrapped segment program) (m.loadBootstrapped segment program)
    (.loadBootstrapped segment program)
  ofBios : AllOrNothing m (biosChecks image) (.loadBios image) (m.loadBios image) (.loadBios image)
  programFits : (∃ n, m.loadProgram segment program = .ok n) ↔
    segment.toNat ≤ 0xFFFF ∧ program.size ≠ 0 ∧ 16 * segment.toNat + program.size ≤ 0x100000
  programPlaced : ∀ n, m.loadProgram segment program = .ok n →
    Imaged m n (16 * segment.toNat) program
  jumpPlaced : ∀ n, m.loadBootstrapped segment program = .ok n →
    ∃ k, m.loadProgram segment program = .ok k ∧ Imaged k n 0xFFFF0 (bootJump segment.toUInt16)
  sameErrors : ∀ e,
    m.loadBootstrapped segment program = .error e ↔ m.loadProgram segment program = .error e
  biosFits : (∃ n, m.loadBios image = .ok n) ↔ 1 ≤ image.size ∧ image.size ≤ 0x100000
  biosPlaced : ∀ n, m.loadBios image = .ok n → Imaged m n (0x100000 - image.size) image
  biosEnds : ∀ n, m.loadBios image = .ok n →
    ∃ h : image.size - 1 < image.size, n.bus.memory.get 0xFFFFF = image[image.size - 1]

/-- An image is placed whole or not at all, whatever the machine, the segment and the image. -/
theorem images_all_or_nothing (m : Machine δ) (segment : UInt32) (program image : ByteArray) :
    Installation m segment program image := by
  have forProgram := allOrNothing_loadProgram m segment program
  have forBoth := allOrNothing_loadBootstrapped m segment program
  have forBios := allOrNothing_loadBios m image
  have biosFits := forBios.accepted.trans biosChecks_hold_iff
  exact {
    ofProgram := forProgram
    ofBootstrapped := forBoth
    ofBios := forBios
    programFits := forProgram.accepted.trans programChecks_hold_iff
    programPlaced := fun _ => imaged_of_loadProgram
    jumpPlaced := fun _ => imaged_of_loadBootstrapped
    sameErrors := fun e => (forBoth.refused e).trans (forProgram.refused e).symm
    biosFits
    biosPlaced := fun _ => imaged_of_loadBios
    biosEnds := fun n loaded => (imaged_of_loadBios loaded).last (biosFits.1 ⟨n, loaded⟩).1 }

end Machine
end RealMode
