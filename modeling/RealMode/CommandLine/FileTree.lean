import RealMode.CommandLine.Files

/-!
Files held in memory, for calls that must not touch real ones. They lie in the working directory, in
a directory above it or in the root; there are no others. A path is walked from step to step, and
the first step that fails decides.
-/

namespace RealMode
namespace CommandLine

inductive Place where
  /-- So many levels above the working directory. -/
  | above (levels : Nat)
  | root
  deriving DecidableEq

namespace Place

/-- The root is its own parent. -/
def parent : Place → Place
  | above levels => above (levels + 1)
  | root => root

end Place

/-- Contents of files, each file once. -/
abbrev FileTree := List ((Place × String) × ByteArray)

namespace FileTree

def maxName : Nat := 255

def maxPath : Nat := 4095

def ofFiles (files : List (String × ByteArray)) : FileTree :=
  files.map fun (name, data) => ((.above 0, name), data)

/-- The names that a path leads through. Slashes in a row count as one. -/
def steps (path : String) : List String :=
  (path.splitOn "/").filter (!·.isEmpty)

def start (path : String) : Place :=
  if path.startsWith "/" then .root else .above 0

/-- What is wrong with a name that would have to be a directory. -/
def through (t : FileTree) (place : Place) (name : String) : FileFault :=
  if maxName < name.utf8ByteSize then .nameTooLong
  else if (t.lookup (place, name)).isSome then .notDirectory
  else .missing

/-- Where the steps lead: to a name in some directory, or, if none is left over, to a directory. -/
def walk (t : FileTree) (place : Place) : List String → Except FileFault (Option (Place × String))
  | [] => .ok none
  | step :: rest =>
    if step = "." then walk t place rest
    else if step = ".." then walk t place.parent rest
    else if rest.isEmpty then .ok (some (place, step))
    else .error (t.through place step)

/-- The file that a path names. A slash at the end asks for a directory, and a file about to be made
is none, whatever its name. -/
def resolve (t : FileTree) (path : String) (making : Bool) : Except FileFault (Place × String) :=
  if maxPath < path.utf8ByteSize then .error .nameTooLong
  else
    match t.walk (start path) (steps path) with
    | .error fault => .error fault
    | .ok none => .error .isDirectory
    | .ok (some (place, name)) =>
      if path.endsWith "/" then .error (if making then .isDirectory else t.through place name)
      else if maxName < name.utf8ByteSize then .error .nameTooLong
      else .ok (place, name)

def read (t : FileTree) (path : String) : Except FileFault ByteArray :=
  match t.resolve path false with
  | .error fault => .error fault
  | .ok file =>
    match t.lookup file with
    | some data => .ok data
    | none => .error .missing

def write (t : FileTree) (path : String) (data : ByteArray) : Except FileFault Unit × FileTree :=
  match t.resolve path true with
  | .error fault => (.error fault, t)
  | .ok file => (.ok (), (file, data) :: t.filter (·.1 != file))

def files : Files (StateM FileTree) where
  read path := fun t => (t.read path, t)
  write path data := fun t => t.write path data

end FileTree
end CommandLine
end RealMode
