import RealMode.Device.Peripheral
import RealMode.Machine
import RealMode.Proofs.Cpu.BackToBack
import RealMode.Proofs.Cpu.Image
import RealMode.Proofs.Memory.Bytewise
import RealMode.Proofs.Timer.Progress

/-!
Starting a program by a reset. A jump to the program stands where a reset processor begins, and the
first step takes it, whatever the machine has been through before. The bytes of the jump belong to
the address space like all others: a program that reaches so far up loses what it has there.
-/

namespace RealMode

theorem Fits.toNat_start {segment : UInt32} {program : ByteArray} (fits : Fits segment program) :
    (segment <<< 4).toNat = 16 * segment.toNat :=
  toNat_segmentStart (UInt32.le_iff_toNat_le.1 fits.inRange)

theorem Fits.toNat_segment {segment : UInt32} {program : ByteArray} (fits : Fits segment program) :
    segment.toUInt16.toNat = segment.toNat := by
  have small : segment.toNat ≤ 0xFFFF := UInt32.le_iff_toNat_le.1 fits.inRange
  rw [UInt32.toNat_toUInt16]
  omega

/-- One of the places that the jump takes. -/
def BootPlace (place : Nat) : Prop :=
  0xFFFF0 ≤ place ∧ place < 0xFFFF5

/-- What has become of a memory in which a program has been placed with the jump to it. -/
structure BootImage (m n : Memory) (segment : UInt32) (program : ByteArray) : Prop where
  jump : ∀ i (h : i < (bootJump segment.toUInt16).size),
    n.get (bootVector + i.toUInt32) = (bootJump segment.toUInt16)[i]
  bytes : ∀ i (h : i < program.size), ¬ BootPlace (16 * segment.toNat + i) →
    n.get (segment <<< 4 + i.toUInt32) = program[i]
  whole : 16 * segment.toNat + program.size ≤ 0xFFFF0 →
    n.readBlock (segment <<< 4) program.size = program
  rest : ∀ address,
    (∀ i < program.size, wrapAddress address ≠ wrapAddress (segment <<< 4 + i.toUInt32)) →
    (∀ i < (bootJump segment.toUInt16).size,
      wrapAddress address ≠ wrapAddress (bootVector + i.toUInt32)) → n.get address = m.get address

theorem Fits.bootImage {segment : UInt32} {program : ByteArray} (fits : Fits segment program)
    (m : Memory) :
    BootImage m ((m.loadBlock (segment <<< 4) program).loadBlock bootVector
      (bootJump segment.toUInt16)) segment program := by
  have inside := fits.inside
  have start := fits.toNat_start
  have small : program.size ≤ memorySize := by omega
  have size : memorySize = 0x100000 := rfl
  have vector : bootVector.toNat = 0xFFFF0 := rfl
  have short : (bootJump segment.toUInt16).size ≤ memorySize := show 5 ≤ memorySize by decide
  have placed : ∀ i (h : i < program.size), ¬ BootPlace (16 * segment.toNat + i) →
      ((m.loadBlock (segment <<< 4) program).loadBlock bootVector
        (bootJump segment.toUInt16)).get (segment <<< 4 + i.toUInt32) = program[i] := by
    intro i within free
    rw [Memory.get_loadBlock_of_apart]
    · exact m.get_loadBlock _ small within
    · intro j among same
      have five : j < 5 := among
      have numbers := congrArg UInt32.toNat same
      rw [Memory.toNat_wrapAddress_add, Memory.toNat_wrapAddress_add, vector, start] at numbers
      rw [BootPlace] at free
      omega
  refine ⟨fun i within => Memory.get_loadBlock _ _ short within, placed, fun below => ?_, ?_⟩
  · refine (Memory.readBlock_eq_iff small).2 fun i within => placed i within ?_
    rw [BootPlace]
    omega
  · intro address noByte noJump
    rw [Memory.get_loadBlock_of_apart _ _ noJump, Memory.get_loadBlock_of_apart _ _ noByte]

namespace Cpu

open MemoryBus (memory)

variable {β : Type}

/-- A processor that has done nothing since power on but to jump to the start of a segment. -/
def started (bus : β) (config : Config) (segment : UInt16) : Cpu β where
  regs := { cs := segment }
  bus
  config
  clock := 15
  instructions := 1

variable [Bus β] [MemoryBus β]

theorem next_of_bootJump {c : Cpu β} {segment : UInt16}
    (placed : ∀ i (h : i < (bootJump segment).size),
      (memory c.bus).get (c.regs.codeAddress + i.toUInt32) = (bootJump segment)[i]) :
    c.next = ⟨.jumpFar segment 0, 5⟩ := by
  have opcode : Opcode.ofByte c.config.variant 0xEA = .jumpFar := by
    cases c.config.variant <;> decide
  have target : wordOfBytes (lowByte segment) (highByte segment) = segment :=
    wordOfBytes_bytes segment
  have offset : wordOfBytes 0 0 = 0 := by decide
  have size : (bootJump segment).size = 5 := rfl
  rw [next_linear, decode, placed 0 (by omega)]
  change (Opcode.ofByte c.config.variant 0xEA).decode _ _ = _
  rw [opcode, Opcode.decode, Code.word, Code.word, placed 1 (by omega), placed 2 (by omega),
    placed 3 (by omega), placed 4 (by omega)]
  change (⟨.jumpFar (wordOfBytes (lowByte segment) (highByte segment)) (wordOfBytes 0 0), 5⟩ :
    Decoded) = _
  rw [target, offset]

/-- The first step after a reset takes the jump. -/
theorem step_reset {c : Cpu β} {segment : UInt16}
    (placed : ∀ i (h : i < (bootJump segment).size),
      (memory c.bus).get (bootVector + i.toUInt32) = (bootJump segment)[i]) :
    c.reset.step = .ok (started c.bus c.config segment) := by
  have vector : c.reset.regs.codeAddress = bootVector := show physical 0xFFFF 0 = _ by decide
  have next : c.reset.next = ⟨.jumpFar segment 0, 5⟩ := next_of_bootJump (by rwa [vector])
  have paid : c.reset.syncTimer = c.reset := syncTimer_of_paid (Nat.zero_div _)
  have done : c.reset.ahead.exec c.reset.next.instr =
      .ok ((c.reset.ahead.jumpFar segment 0).spend 15) := by
    rw [next]
    rfl
  rw [step_of_masked rfl rfl done rfl, ahead, paid]
  rfl

end Cpu

namespace Machine

variable {δ : Type} [PortDevice δ] {m n : Machine δ} {segment : UInt32} {program : ByteArray}

/-- A machine with a program and the jump to it in memory. -/
def bootstrapped (m : Machine δ) (segment : UInt32) (program : ByteArray) : Machine δ :=
  m.mapBus fun b => { b with
    memory := (b.memory.loadBlock (segment <<< 4) program).loadBlock bootVector
      (bootJump segment.toUInt16) }

theorem loadBootstrapped_eq_ok_iff :
    m.loadBootstrapped segment program = .ok n ↔
      Fits segment program ∧ n = m.bootstrapped segment program := by
  rw [loadBootstrapped]
  cases placed : m.cpu.loadBootstrapped segment program with
  | error e =>
      refine ⟨nofun, fun ⟨fits, _⟩ => ?_⟩
      rw [Cpu.loadBootstrapped_eq_ok_iff.2 ⟨fits, rfl⟩] at placed
      cases placed
  | ok c =>
      obtain ⟨fits, rfl⟩ := Cpu.loadBootstrapped_eq_ok_iff.1 placed
      exact ⟨fun done => ⟨fits, (Except.ok.inj done).symm⟩, fun h => congrArg Except.ok h.2.symm⟩

theorem step_bootstrapped (fits : Fits segment program) :
    (m.bootstrapped segment program).reset.cpu.step = .ok (.started
      { m.bus with memory := (m.bootstrapped segment program).bus.memory, pic := {}, pit := {} }
      m.cpu.config segment.toUInt16) :=
  Cpu.step_reset (fits.bootImage m.bus.memory).jump

/-- After a reset one step takes the processor to the program, whatever state the machine was in.
Memory holds the program but for what the jump has taken of it. -/
theorem bootstrapped_program_runs (loaded : m.loadBootstrapped segment program = .ok n) :
    n.reset.cpu.step = .ok (.started
        { m.bus with memory := n.bus.memory, pic := {}, pit := {} } m.cpu.config
        segment.toUInt16) ∧
      segment.toUInt16.toNat = segment.toNat ∧
      BootImage m.bus.memory n.bus.memory segment program := by
  obtain ⟨fits, rfl⟩ := loadBootstrapped_eq_ok_iff.1 loaded
  exact ⟨step_bootstrapped fits, fits.toNat_segment, fits.bootImage m.bus.memory⟩

/-- A machine that has halted in a handler, behind a prefix and in the midst of an initialisation. -/
def wornMachine : Machine Peripheral where
  cpu :=
    { bus := { pic := { inService := 1, stage := .icw2 } }
      config := .ofRatio .i80186 4 false
      prefixes := { segment := some .es }
      irqFrames := [⟨0, 0x100, 0, ⟨none, none, none⟩⟩]
      clock := 7
      halted := true }

theorem fits_halt : Fits 0x1000 ⟨#[0xF4]⟩ :=
  ⟨by decide, by decide, by decide⟩

theorem bootstrapped_program_runs_halt :
    wornMachine.loadBootstrapped 0x1000 ⟨#[0xF4]⟩ =
        .ok (wornMachine.bootstrapped 0x1000 ⟨#[0xF4]⟩) ∧
      ∃ d, (wornMachine.bootstrapped 0x1000 ⟨#[0xF4]⟩).reset.cpu.step = .ok d ∧
        d.regs = { cs := 0x1000 } ∧ d.halted = false ∧ d.irqFrames = [] ∧ d.prefixes = {} ∧
        d.bus.pic = {} ∧ d.bus.memory.readBlock 0x10000 1 = ⟨#[0xF4]⟩ := by
  have loaded : wornMachine.loadBootstrapped 0x1000 ⟨#[0xF4]⟩ = .ok _ :=
    loadBootstrapped_eq_ok_iff.2 ⟨fits_halt, rfl⟩
  obtain ⟨step, _, image⟩ := bootstrapped_program_runs loaded
  exact ⟨loaded, _, step, rfl, rfl, rfl, rfl, rfl, image.whole (by decide)⟩

/-- Code that reaches beyond the boot vector by two bytes. -/
def overgrown : ByteArray :=
  ⟨Array.replicate 18 0x90⟩

theorem fits_overgrown : Fits 0xFFFE overgrown :=
  ⟨by decide, by decide, by decide⟩

/-- A program is accepted also where the jump destroys it. -/
theorem program_under_jump :
    ¬ ∀ (m n : Machine Peripheral) (segment : UInt32) (program : ByteArray),
      m.loadBootstrapped segment program = .ok n →
      ∃ d, n.reset.cpu.step = .ok d ∧
        d.bus.memory.readBlock (segment <<< 4) program.size = program := by
  intro all
  obtain ⟨d, step, whole⟩ := all (ofConfig {}) _ 0xFFFE overgrown
    (loadBootstrapped_eq_ok_iff.2 ⟨fits_overgrown, rfl⟩)
  rw [step_bootstrapped fits_overgrown] at step
  cases step
  have image := fits_overgrown.bootImage (ofConfig {} : Machine Peripheral).bus.memory
  have asProgram := (Memory.readBlock_eq_iff (by decide)).1 whole 16 (by decide)
  have asJump := image.jump 0 (by decide)
  have place : (0xFFFE : UInt32) <<< 4 + (16 : Nat).toUInt32 = bootVector + (0 : Nat).toUInt32 := by
    decide
  rw [place] at asProgram
  have both : overgrown[16] = (bootJump 0xFFFE)[0] := asProgram.symm.trans asJump
  exact absurd both (by decide)

end Machine
end RealMode
