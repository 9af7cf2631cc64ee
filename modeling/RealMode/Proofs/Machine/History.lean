import RealMode.Machine
import RealMode.Proofs.Cpu.Image

/-!
Histories of a machine. What a host does with a machine from power on is a list of operations; steps
that break off and images that are refused belong to it like all others. The states in which a
history starts a step are listed, so that a condition on every step can be stated.
-/

namespace RealMode
namespace Machine

variable {δ : Type}

/-- What a host can do with a machine. -/
inductive Op (δ : Type) where
  | attach (device : δ)
  | loadProgram (segment : UInt32) (program : ByteArray)
  | loadBootstrapped (segment : UInt32) (program : ByteArray)
  | loadBios (image : ByteArray)
  | setEntry (segment offset : UInt16)
  | raise (line : IrqLine)
  | setStop (stop : Bool)
  | step
  | run (mode : RunMode)
  | reset

/-- The host installs a device or an image. -/
def Op.installs : Op δ → Bool
  | .attach _ | .loadProgram _ _ | .loadBootstrapped _ _ | .loadBios _ => true
  | _ => false

variable [PortDevice δ]

/-- What is refused changes nothing. -/
def perform (m : Machine δ) : Op δ → Machine δ
  | .attach device => (m.attach device).toOption.getD m
  | .loadProgram segment program => (m.loadProgram segment program).toOption.getD m
  | .loadBootstrapped segment program => (m.loadBootstrapped segment program).toOption.getD m
  | .loadBios image => (m.loadBios image).toOption.getD m
  | .setEntry segment offset => { m with cpu := m.cpu.setEntry segment offset }
  | .raise line => m.mapBus (·.raise line)
  | .setStop stop => { m with stop }
  | .step => { m with cpu := m.cpu.step.cpu }
  | .run mode => (m.run mode).2
  | .reset => m.reset

/-- Neither processor nor chips are touched by what is installed. -/
theorem perform_of_installs {m : Machine δ} {op : Op δ} (installs : op.installs = true) :
    ∃ memory devices ports,
      (m.perform op).cpu = { m.cpu with bus := { m.cpu.bus with memory, devices, ports } } := by
  cases op with
  | setEntry | raise | setStop | step | run | reset => cases installs
  | attach device =>
      rw [perform, attach, PcBus.attach]
      dsimp only
      split <;> exact ⟨_, _, _, rfl⟩
  | loadProgram segment program =>
      rw [perform, loadProgram]
      cases loaded : m.cpu.loadProgram segment program with
      | error _ => exact ⟨_, _, _, rfl⟩
      | ok d =>
          obtain ⟨_, rfl⟩ := Cpu.loadProgram_eq_ok_iff.1 loaded
          exact ⟨_, _, _, rfl⟩
  | loadBootstrapped segment program =>
      rw [perform, loadBootstrapped]
      cases loaded : m.cpu.loadBootstrapped segment program with
      | error _ => exact ⟨_, _, _, rfl⟩
      | ok d =>
          obtain ⟨_, rfl⟩ := Cpu.loadBootstrapped_eq_ok_iff.1 loaded
          exact ⟨_, _, _, rfl⟩
  | loadBios image =>
      rw [perform, loadBios]
      cases loaded : m.cpu.loadBios image with
      | error _ => exact ⟨_, _, _, rfl⟩
      | ok d =>
          rw [Cpu.eq_of_loadBios loaded]
          exact ⟨_, _, _, rfl⟩

/-- After these operations from power on. -/
def after (config : Config) (ops : List (Op δ)) : Machine δ :=
  ops.foldl perform (ofConfig config)

/-- The processor before each step of a run of at most `n` steps. -/
def runStarts (stop : Bool) (c : Cpu (PcBus δ)) : Nat → List (Cpu (PcBus δ))
  | 0 => []
  | n + 1 =>
    if stop || c.stopped then []
    else c :: if c.step.missing.isSome then [] else runStarts stop c.step.cpu n

def starts (m : Machine δ) : Op δ → List (Cpu (PcBus δ))
  | .step => [m.cpu]
  | .run mode => runStarts m.stop m.cpu (budget mode)
  | _ => []

/-- The processor before each step of a history. -/
def stepStarts (m : Machine δ) : List (Op δ) → List (Cpu (PcBus δ))
  | [] => []
  | op :: ops => m.starts op ++ (m.perform op).stepStarts ops

theorem runSteps_succ (stop : Bool) (c : Cpu (PcBus δ)) (n : Nat) :
    runSteps stop c (n + 1) =
      if stop || c.stopped then .ok c else c.step.andThen (runSteps stop · n) := by
  rw [runSteps]
  cases stop with
  | true => rfl
  | false =>
      cases c.stopped with
      | true => rfl
      | false =>
          rcases c.step with ⟨d, missing⟩
          cases missing <;> rfl

theorem runSteps_keeps {P : Cpu (PcBus δ) → Prop} {stop : Bool} {c : Cpu (PcBus δ)} {n : Nat}
    (keeps : ∀ d ∈ runStarts stop c n, P d → P d.step.cpu) (h : P c) :
    P (runSteps stop c n).cpu := by
  induction n generalizing c with
  | zero => exact h
  | succ n ih =>
      rw [runSteps_succ]
      rw [runStarts] at keeps
      by_cases ends : (stop || c.stopped) = true
      · rw [if_pos ends]
        exact h
      · rw [if_neg ends] at keeps ⊢
        have next : P c.step.cpu := keeps c List.mem_cons_self h
        have rest := fun d member => keeps d (List.mem_cons_of_mem _ member)
        generalize c.step = o at next rest
        rcases o with ⟨d, missing⟩
        cases missing with
        | none => exact ih rest next
        | some _ => exact next

/-- What every operation keeps holds after every history. -/
theorem foldl_perform_keeps {P : Machine δ → Prop} {allowed : Cpu (PcBus δ) → Prop}
    (keeps : ∀ m op, (∀ c ∈ m.starts op, allowed c) → P m → P (m.perform op)) {m : Machine δ}
    {ops : List (Op δ)} (all : ∀ c ∈ m.stepStarts ops, allowed c) (h : P m) :
    P (ops.foldl perform m) := by
  induction ops generalizing m with
  | nil => exact h
  | cons op ops ih =>
      refine ih (fun c member => all c (List.mem_append_right _ member)) ?_
      exact keeps m op (fun c member => all c (List.mem_append_left _ member)) h

end Machine
end RealMode
