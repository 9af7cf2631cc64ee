import RealMode.CommandLine.Session

/-!
The command line program, on the arguments, files and streams of the operating system.
-/

namespace RealMode
namespace CommandLine

/-- The fault behind an error of the system. Some calls give its number with a minus sign. -/
def faultOf (e : IO.Error) : FileFault :=
  match e with
  | .noFileOrDirectory _ code _ | .permissionDenied _ code _ | .inappropriateType _ code _
  | .invalidArgument _ code _ =>
    (FileFault.ofNumber? code.toInt32.toInt.natAbs).getD (.other (toString e))
  | _ => .other (toString e)

def systemFiles : Files IO where
  read path := do
    try
      return .ok (← IO.FS.readBinFile path)
    catch e => return .error (faultOf e)
  write path data := do
    try
      IO.FS.writeBinFile path data
      return .ok ()
    catch e => return .error (faultOf e)

end CommandLine
end RealMode

def main (args : List String) : IO UInt32 := do
  let t ← RealMode.CommandLine.run RealMode.CommandLine.systemFiles args
  t.stdout.forM IO.println
  t.stderr.forM IO.eprintln
  return t.exitCode
