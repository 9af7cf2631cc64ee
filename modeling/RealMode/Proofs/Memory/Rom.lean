import RealMode.Device.Peripheral
import RealMode.Proofs.Interrupt.Frame
import RealMode.Proofs.Interrupt.Work
import RealMode.Proofs.Machine.History

/-!
The ROM window under a running program. A store there is lost, and words and frames are stores, so
that neither a step nor a run in any mode changes a byte of the window, whatever devices and
interrupts do meanwhile. What the host does changes it only if it loads an image.
-/

namespace RealMode

open MemoryBus (memory)

namespace Memory

/-- The same bytes in the ROM window. -/
def SameRom (m n : Memory) : Prop :=
  ∀ address, romStart ≤ wrapAddress address → n.get address = m.get address

namespace SameRom

variable {m n k : Memory}

theorem refl (m : Memory) : SameRom m m :=
  fun _ _ => rfl

theorem of_eq (same : n = m) : SameRom m n := by
  rw [same]
  exact refl m

theorem trans (h : SameRom m n) (g : SameRom n k) : SameRom m k := by
  intro address rom
  rw [g address rom, h address rom]

theorem store (h : SameRom m n) (address : UInt32) (value : UInt8) :
    SameRom m (n.store address value) := by
  intro b rom
  rw [get_store, if_neg fun hit => hit.2 rom]
  exact h b rom

/-- Also of a word that begins before the window. -/
theorem writeWord (h : SameRom m n) (address : UInt32) (value : UInt16) :
    SameRom m (n.writeWord address value) :=
  (h.store address (lowByte value)).store (address + 1) (highByte value)

theorem pushFrame (h : SameRom m n) (r : Registers) : SameRom m (n.pushFrame r) :=
  ((h.writeWord _ _).writeWord _ _).writeWord _ _

end SameRom
end Memory

open Memory (SameRom)

section

variable {β : Type} [Bus β] [MemoryBus β]

theorem Bus.Access.sameRom {b d : β} (access : Bus.Access b d) : SameRom (memory b) (memory d) := by
  induction access with
  | refl => exact .refl _
  | writeByte _ address value ih =>
      rw [MemoryBus.writeByte]
      exact ih.store address value
  | writeWord _ address value ih =>
      rw [MemoryBus.writeWord]
      exact ih.writeWord address value
  | readPort _ port ih => rwa [MemoryBus.readPort]
  | writePort _ port value ih => rwa [MemoryBus.writePort]
  | readPortWord _ port ih => rwa [MemoryBus.readPortWord]
  | writePortWord _ port value ih => rwa [MemoryBus.writePortWord]

namespace Cpu

theorem Work.sameRom {c d : Cpu β} (work : Work c d) : SameRom (memory c.bus) (memory d.bus) := by
  induction work with
  | refl => exact .refl _
  | steady _ steady ih => exact ih.trans steady.bus.sameRom
  | retire _ ih => exact ih
  | endIrq _ frame _ ih => exact ih.trans (.of_eq (MemoryBus.endOfInterrupt _ frame.line))
  | askIrq _ ih => exact ih.trans (.of_eq (MemoryBus.pendingIrq _))
  | enterIrq _ irq target ih =>
      rw [memory_enterIrq]
      exact ih.pushFrame _
  | refuseIrq _ line ih => exact ih.trans (.of_eq (MemoryBus.endOfInterrupt _ line))

theorem sameRom_step (c : Cpu β) : SameRom (memory c.bus) (memory c.step.cpu.bus) := by
  rw [← c.memory_syncTimer]
  exact c.work_step.sameRom

theorem sameRom_runFor (c : Cpu β) (n : Nat) :
    SameRom (memory c.bus) (memory (c.runFor n).cpu.bus) := by
  induction n generalizing c with
  | zero => exact .refl _
  | succ n ih =>
      have step := c.sameRom_step
      rw [runFor]
      split
      · exact .refl _
      · generalize c.step = o at step
        obtain ⟨d, missing⟩ := o
        cases missing with
        | none => exact step.trans (ih d)
        | some _ => exact step

theorem sameRom_runMode (c : Cpu β) (mode : RunMode) :
    SameRom (memory c.bus) (memory (c.runMode mode).cpu.bus) := by
  cases mode with
  | run => exact c.sameRom_runFor unbounded
  | runFor n => exact c.sameRom_runFor n
  | step => exact c.sameRom_step

end Cpu

/-- What can become of a processor while nothing is loaded. Between steps and runs the host may use
the bus as a program does, and change everything but the memory. -/
inductive Unloaded (start : Cpu β) : Cpu β → Prop
  | refl : Unloaded start start
  | step {c : Cpu β} (h : Unloaded start c) : Unloaded start c.step.cpu
  | run {c : Cpu β} (h : Unloaded start c) (mode : RunMode) : Unloaded start (c.runMode mode).cpu
  | access {c : Cpu β} (h : Unloaded start c) {bus : β} (access : Bus.Access c.bus bus) :
      Unloaded start { c with bus }
  | host {c d : Cpu β} (h : Unloaded start c) (kept : memory d.bus = memory c.bus) :
      Unloaded start d

theorem Unloaded.sameRom {start c : Cpu β} (h : Unloaded start c) :
    SameRom (memory start.bus) (memory c.bus) := by
  induction h with
  | refl => exact .refl _
  | step _ ih => exact ih.trans (Cpu.sameRom_step _)
  | run _ mode ih => exact ih.trans (Cpu.sameRom_runMode _ mode)
  | access _ access ih => exact ih.trans access.sameRom
  | host _ kept ih => exact ih.trans (.of_eq kept)

end

namespace Machine

variable {δ : Type}

/-- Operations that place an image. -/
def Op.loads : Op δ → Bool
  | .loadProgram _ _ | .loadBootstrapped _ _ | .loadBios _ => true
  | _ => false

variable [PortDevice δ] {start : Cpu (PcBus δ)} {m : Machine δ}

theorem memory_attach (m : Machine δ) (device : δ) :
    ((m.attach device).toOption.getD m).cpu.bus.memory = m.cpu.bus.memory := by
  rw [attach, PcBus.attach]
  dsimp only
  split <;> rfl

theorem unloaded_perform (h : Unloaded start m.cpu) {op : Op δ} (noLoad : op.loads = false) :
    Unloaded start (m.perform op).cpu := by
  cases op with
  | loadProgram | loadBootstrapped | loadBios => cases noLoad
  | attach device => exact h.host (m.memory_attach device)
  | setEntry | raise | reset => exact h.host rfl
  | setStop => exact h
  | step => exact h.step
  | run mode => exact runSteps_keeps (fun d _ unloaded => unloaded.step) h

theorem unloaded_foldl_perform (h : Unloaded start m.cpu) {ops : List (Op δ)}
    (noLoads : ∀ op ∈ ops, op.loads = false) : Unloaded start (ops.foldl perform m).cpu := by
  induction ops generalizing m with
  | nil => exact h
  | cons op ops ih =>
      obtain ⟨first, rest⟩ := List.forall_mem_cons.1 noLoads
      exact ih (unloaded_perform h first) rest

theorem succ_ne_self (value : UInt8) : value + 1 ≠ value := by
  revert value
  exact forall_byte (by decide +kernel)

/-- An image of one byte goes to the end of the window. -/
theorem loadBios_byte (m : Machine δ) (value : UInt8) :
    m.loadBios ⟨#[value]⟩ =
      .ok (m.mapBus fun b => { b with memory := b.memory.set 0xFFFFF value }) := by
  have placed := m.cpu.bus.memory.loadBlock_byte 0xFFFFF value
  have loaded : m.loadBios ⟨#[value]⟩ =
      .ok (m.mapBus fun b => { b with memory := b.memory.loadBlock 0xFFFFF ⟨#[value]⟩ }) := rfl
  rw [loaded]
  simp only [mapBus, placed]

theorem loadBios_changes (m : Machine δ) :
    ∃ image loaded, m.loadBios image = .ok loaded ∧
      ¬ SameRom m.cpu.bus.memory loaded.cpu.bus.memory := by
  refine ⟨_, _, m.loadBios_byte (m.cpu.bus.memory.get 0xFFFFF + 1), fun same => ?_⟩
  have last := same 0xFFFFF (by decide)
  change (m.cpu.bus.memory.set 0xFFFFF _).get 0xFFFFF = _ at last
  rw [Memory.get_set, if_pos rfl] at last
  exact succ_ne_self _ last

end Machine

/-- Neither a program nor a host that loads nothing changes the ROM window, of a processor on its
own as of a machine with any devices; and to load an image can change it. -/
theorem rom_immutable {start c : Cpu FlatBus} (unloaded : Unloaded start c) {δ : Type}
    [PortDevice δ] {m : Machine δ} {ops : List (Machine.Op δ)}
    (noLoads : ∀ op ∈ ops, op.loads = false) :
    SameRom start.bus.memory c.bus.memory ∧
      SameRom m.cpu.bus.memory (ops.foldl Machine.perform m).cpu.bus.memory ∧
      ∃ image loaded, m.loadBios image = .ok loaded ∧
        ¬ SameRom m.cpu.bus.memory loaded.cpu.bus.memory :=
  ⟨unloaded.sameRom, (Machine.unloaded_foldl_perform .refl noLoads).sameRom, m.loadBios_changes⟩

/-- About to store a byte at the start of the window. -/
def romWriter : Cpu FlatBus where
  regs := { ip := 0x10, es := 0xF000, ax := 0xFF }
  bus := { memory := Memory.zero.set 0x10 0xAA }
  config := .ofRatio .i8086 4 false

def romMachine : Machine Peripheral :=
  .ofConfig (.ofRatio .i8086 4 false)

def romHistory : List (Machine.Op Peripheral) :=
  [.attach (.ofPorts "cell" .cell [0x80]), .raise .timer, .step, .run (.runFor 3), .reset]

/-- The store is lost. -/
theorem rom_immutable_store :
    Unloaded romWriter romWriter.step.cpu ∧ (∀ op ∈ romHistory, op.loads = false) ∧
      romWriter.step.cpu.bus.memory.get 0xF0000 = 0 ∧
      SameRom romMachine.cpu.bus.memory
        (romHistory.foldl Machine.perform romMachine).cpu.bus.memory := by
  have unloaded : Unloaded romWriter romWriter.step.cpu := Unloaded.refl.step
  have noLoads : ∀ op ∈ romHistory, op.loads = false := by simp [romHistory, Machine.Op.loads]
  obtain ⟨alone, machine, -⟩ := rom_immutable unloaded (m := romMachine) noLoads
  have before : romWriter.bus.memory.get 0xF0000 = 0 := by
    change (Memory.zero.set 0x10 0xAA).get 0xF0000 = 0
    rw [Memory.get_set, if_neg (by decide)]
    exact Array.getElem_replicate _
  exact ⟨unloaded, noLoads, (alone 0xF0000 (by decide)).trans before, machine⟩

end RealMode
