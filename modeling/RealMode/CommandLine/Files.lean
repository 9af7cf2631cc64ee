/-!
Files as the program sees them: contents behind paths, and the reasons for which a path may fail to
lead to any.
-/

namespace RealMode
namespace CommandLine

inductive FileFault where
  | missing
  | permissionDenied
  | notDirectory
  | isDirectory
  | nameTooLong
  | other (text : String)
  deriving DecidableEq

namespace FileFault

def ofNumber? : Nat → Option FileFault
  | 2 => some missing
  | 13 => some permissionDenied
  | 20 => some notDirectory
  | 21 => some isDirectory
  | 36 => some nameTooLong
  | _ => none

def message : FileFault → String
  | missing => "No such file or directory (os error 2)"
  | permissionDenied => "Permission denied (os error 13)"
  | notDirectory => "Not a directory (os error 20)"
  | isDirectory => "Is a directory (os error 21)"
  | nameTooLong => "File name too long (os error 36)"
  | other text => text

end FileFault

structure Files (m : Type → Type) where
  read : String → m (Except FileFault ByteArray)
  write : String → ByteArray → m (Except FileFault Unit)

end CommandLine
end RealMode
