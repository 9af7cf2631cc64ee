import RealMode.Machine

/-!
What a run prints: the counters, or the reason why it broke off, the registers if they are asked
for, and a failure with its cause.
-/

namespace RealMode
namespace CommandLine

structure Failure where
  message : String
  cause : Option String := none

namespace Failure

def lines (f : Failure) : List String :=
  ("Error: " ++ f.message) ::
    match f.cause with
    | some cause => ["", "Caused by:", "    " ++ cause]
    | none => []

end Failure

def heading (title : String) : List String :=
  ["", "========== " ++ title ++ " ===========", ""]

def statsLines (s : Stats) : List String :=
  ["Instructions: " ++ toString s.instructions, "Clocks: " ++ toString s.cycles,
    "Timer ticks: " ++ toString s.timerTicks]

/-- The nested form of a missing handler, one level a line. -/
def missingLines (e : MissingHandler) : List String :=
  ["Execution(", "    MissingInterruptHandler(", "        " ++ toString e.vector.toNat ++ ",",
    "    ),", ")"]

def resultLines (r : RunResult) : List String :=
  heading "RESULT/STATS" ++
    match r with
    | .ok stats => statsLines stats
    | .error e => missingLines e

def hex4 (value : UInt16) : String := Hex.upper 4 value.toNat

def stateLines (s : Registers) (halted : Bool) : List String :=
  heading "CPU STATE"
    ++ ["CS:IP: " ++ hex4 s.cs ++ ":" ++ hex4 s.ip]
    ++ Reg16.all.map (fun r => r.name ++ ": " ++ hex4 (s.get r))
    ++ SegReg.all.map (fun r => r.name ++ ": " ++ hex4 (s.seg r))
    ++ ["Flags: " ++ s.flags.text ++ " (" ++ hex4 s.flags.toWord ++ ")",
      "Halted: " ++ toString halted]

def versionLines : List String := ["realmode 0.1.0"]

def helpLines : List String :=
  ["Runs real-mode 8086/80186 machine code", "",
    "  -v, --verbose", "  -s, --show-cpu-state",
    "      --cpu <CPU>                8086 or 80186 (default 8086)",
    "      --timer-ratio <N>          Processor clocks per timer tick (default 4)",
    "      --strict-vectors           Fail when an interrupt vector is 0000:0000",
    "      --bios <PATH>              ROM image placed at the top of the address space",
    "  -p, --program <PATH>           Program image, started through the reset vector",
    "      --segment <SEGMENT>        Segment of the program, decimal or 0x-prefixed hex (default 0)",
    "  -m, --max-instructions <N>     Stop after this many instructions",
    "      --dump-state <PATH>        Write the final register state to this file",
    "  -h, --help", "  -V, --version"]

end CommandLine
end RealMode
