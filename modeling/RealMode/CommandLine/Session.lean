import RealMode.CommandLine.Files
import RealMode.CommandLine.Options
import RealMode.CommandLine.Report
import RealMode.Registers.Snapshot

/-!
A call of the program from its arguments to its exit code. Files are whatever `m` makes of a path: a
read or a write may fail, and then its fault is the cause of the failure.
-/

namespace RealMode
namespace CommandLine

/-- What a call leaves behind besides files. A newline is printed behind every piece of text. -/
structure Transcript where
  exitCode : UInt32
  stdout : List String := []
  stderr : List String := []

namespace Transcript

def ofFailure (stdout : List String) (f : Failure) : Transcript :=
  ⟨1, stdout, f.lines⟩

end Transcript

instance : PortDevice Empty where
  name := nofun
  ports := nofun
  getByte := nofun
  setByte := nofun

namespace Options

def config (o : Options) : Config :=
  .ofRatio o.variant o.timerRatio o.strictVectors

def runMode (o : Options) : RunMode :=
  match o.maxInstructions with
  | some n => .runFor n
  | none => .run

end Options

variable {m : Type → Type} [Monad m]

def loadFile (files : Files m) (path : Option String) (what : String)
    (place : ByteArray → Except LoadError (Machine Empty)) (machine : Machine Empty) :
    m (Except Failure (Machine Empty)) :=
  match path with
  | none => pure (.ok machine)
  | some path => do
    match ← files.read path with
    | .error fault =>
      pure (.error ⟨"failed to read " ++ what ++ " " ++ path, some fault.message⟩)
    | .ok image =>
      match place image with
      | .ok machine => pure (.ok machine)
      | .error e => pure (.error ⟨e.message, none⟩)

/-- The ROM image comes first, and the program starts through the reset vector. -/
def loadFiles (files : Files m) (o : Options) : m (Except Failure (Machine Empty)) := do
  let machine : Machine Empty := .ofConfig o.config
  match ← loadFile files o.bios "BIOS image" machine.loadBios machine with
  | .error f => pure (.error f)
  | .ok machine =>
    loadFile files o.program "program" (machine.loadBootstrapped o.segment) machine

def dumpState (files : Files m) (o : Options) (s : Registers) : m (Option Failure) :=
  match o.dumpState with
  | none => pure none
  | some path => do
    match ← files.write path ⟨(Snapshot.encode s).toArray⟩ with
    | .ok () => pure none
    | .error fault =>
      pure (some ⟨"failed to write cpu state to " ++ path, some fault.message⟩)

/-- Runs a loaded machine and reports on it. A run that broke off is reported after the registers
are stored. -/
def report (files : Files m) (o : Options) (machine : Machine Empty) : m Transcript := do
  let (result, machine) := machine.reset.run o.runMode
  let cpu := machine.cpu
  let stdout := resultLines result
    ++ (if o.showCpuState then stateLines cpu.regs cpu.halted else [])
  match ← dumpState files o cpu.regs with
  | some failure => pure (.ofFailure stdout failure)
  | none =>
    match result with
    | .ok _ => pure ⟨0, stdout, []⟩
    | .error e => pure (.ofFailure stdout ⟨e.message, none⟩)

def runOptions (files : Files m) (o : Options) : m Transcript :=
  if o.bios.isNone && o.program.isNone then
    pure (.ofFailure [] ⟨"nothing to run: pass --bios and/or --program", none⟩)
  else do
    match ← loadFiles files o with
    | .error failure => pure (.ofFailure [] failure)
    | .ok machine => report files o machine

def run (files : Files m) (args : List String) : m Transcript :=
  match Options.ofArguments args with
  | .ok o => runOptions files o
  | .error .usage => pure { exitCode := 2 }
  | .error .help => pure { exitCode := 0, stdout := helpLines }
  | .error .version => pure { exitCode := 0, stdout := versionLines }

end CommandLine
end RealMode
