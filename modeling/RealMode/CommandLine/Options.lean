import RealMode.CommandLine.Number
import RealMode.Opcode

/-!
From arguments to options. Arguments are read from left to right, and the first that asks for help,
asks for the version or is at fault decides. Every option is given at most once; values are never
taken for options, nor words that start with a dash for values.
-/

namespace RealMode
namespace CommandLine

structure Options where
  /-- Accepted, but there are no log records to show. -/
  verbose : Bool := false
  showCpuState : Bool := false
  variant : Variant := .i8086
  timerRatio : Nat := 4
  strictVectors : Bool := false
  bios : Option String := none
  program : Option String := none
  segment : UInt32 := 0
  maxInstructions : Option Nat := none
  dumpState : Option String := none

inductive Switch where
  | verbose
  | showCpuState
  | cpu
  | timerRatio
  | strictVectors
  | bios
  | program
  | segment
  | maxInstructions
  | dumpState
  | help
  | version
  deriving DecidableEq

inductive Stop where
  | usage
  | help
  | version
  deriving DecidableEq

namespace Switch

def ofLong? (name : String) : Option Switch :=
  match name with
  | "verbose" => some verbose
  | "show-cpu-state" => some showCpuState
  | "cpu" => some cpu
  | "timer-ratio" => some timerRatio
  | "strict-vectors" => some strictVectors
  | "bios" => some bios
  | "program" => some program
  | "segment" => some segment
  | "max-instructions" => some maxInstructions
  | "dump-state" => some dumpState
  | "help" => some help
  | "version" => some version
  | _ => none

def ofShort? : Char → Option Switch
  | 'v' => some verbose
  | 's' => some showCpuState
  | 'p' => some program
  | 'm' => some maxInstructions
  | 'h' => some help
  | 'V' => some version
  | _ => none

def takesValue : Switch → Bool
  | verbose | showCpuState | strictVectors | help | version => false
  | cpu | timerRatio | bios | program | segment | maxInstructions | dumpState => true

end Switch

/-- Options so far, and what they were made of. -/
structure Draft where
  options : Options := {}
  given : List Switch := []

namespace Draft

def path? (value : String) : Option String :=
  if value.isEmpty then none else some value

/-- The options with one more of them set. `value` is not looked at by a switch without one. -/
def set? (o : Options) (s : Switch) (value : String) : Option Options :=
  match s with
  | .verbose => some { o with verbose := true }
  | .showCpuState => some { o with showCpuState := true }
  | .strictVectors => some { o with strictVectors := true }
  | .cpu => (Variant.ofName? value).map fun variant => { o with variant }
  | .timerRatio => (signed? 0x100000000 value.toList).map fun timerRatio => { o with timerRatio }
  | .bios => (path? value).map fun path => { o with bios := some path }
  | .program => (path? value).map fun path => { o with program := some path }
  | .segment => (segment? value.toList).map fun n => { o with segment := n.toUInt32 }
  | .maxInstructions =>
    (unsigned? 10 0x10000000000000000 value.toList).map fun n => { o with maxInstructions := some n }
  | .dumpState => (path? value).map fun path => { o with dumpState := some path }
  | .help | .version => none

def apply (d : Draft) (s : Switch) (value : String) : Except Stop Draft :=
  match s with
  | .help => .error .help
  | .version => .error .version
  | s =>
    if s ∈ d.given then .error .usage
    else
      match set? d.options s value with
      | some options => .ok { options, given := s :: d.given }
      | none => .error .usage

/-- A switch that stands last in its argument with a value it may still need: its own, or the next
argument. Gives back the arguments that are left. -/
def take (d : Draft) (s : Switch) (rest : List String) : Except Stop (Draft × List String) :=
  if !s.takesValue then (d.apply s "").map (·, rest)
  else
    match rest with
    | value :: rest =>
      if value.startsWith "-" && value != "-" then .error .usage
      else (d.apply s value).map (·, rest)
    | [] => .error .usage

/-- An argument of one dash: switches without a value in a row, up to one that takes the rest of
the argument, or the next argument, for its value. -/
def short (d : Draft) (rest : List String) : List Char → Except Stop (Draft × List String)
  | [] => .ok (d, rest)
  | c :: cs =>
    match Switch.ofShort? c with
    | none => .error .usage
    | some s =>
      if s.takesValue then
        match cs with
        | [] => d.take s rest
        | '=' :: value => (d.apply s (String.ofList value)).map (·, rest)
        | value => (d.apply s (String.ofList value)).map (·, rest)
      else
        match d.apply s "" with
        | .ok d => short d rest cs
        | .error e => .error e

/-- An argument of two dashes, without them. A value may follow an equals sign. -/
def long (d : Draft) (rest : List String) (text : List Char) : Except Stop (Draft × List String) :=
  match Switch.ofLong? (String.ofList (text.takeWhile (· != '='))) with
  | none => .error .usage
  | some s =>
    match text.dropWhile (· != '=') with
    | [] => d.take s rest
    | _ :: value =>
      if s.takesValue then (d.apply s (String.ofList value)).map (·, rest) else .error .usage

/-- One argument, with those behind it. A word that is no option has no place; two dashes alone end
the options, and then nothing may follow. -/
def argument (d : Draft) (arg : String) (rest : List String) : Except Stop (Draft × List String) :=
  match arg.toList with
  | ['-', '-'] => if rest.isEmpty then .ok (d, []) else .error .usage
  | '-' :: '-' :: name => d.long rest name
  | ['-'] => .error .usage
  | '-' :: letters => d.short rest letters
  | _ => .error .usage

/-- Every argument uses up itself, so that there are at most as many rounds as arguments. -/
def arguments (d : Draft) : Nat → List String → Except Stop Options
  | _, [] => .ok d.options
  | 0, _ => .error .usage
  | n + 1, arg :: rest =>
    match d.argument arg rest with
    | .ok (d, rest) => arguments d n rest
    | .error e => .error e

end Draft

namespace Options

def ofArguments (args : List String) : Except Stop Options :=
  Draft.arguments {} args.length args

end Options
end CommandLine
end RealMode
