import AnalysisBrowser.Machine.Location
import AnalysisBrowser.Text.Utf8

/-!
# Files and directories

A disk maps places to files and directories. A place is the list of the names that lead to it from
the root, the innermost first, so the directory around a place is the tail of the list. Looking up
a path walks part by part; each part but the last must lead to a directory.
-/
namespace AnalysisBrowser

/-- Why the system refuses to do something with a file. -/
inductive FileError where
  | notFound
  | exists
  | notDirectory
  | isDirectory
  | nameTooLong
  | nulInName
  | notText
  /-- A refusal that no disk of this library gives, with the wording of the system. -/
  | other (wording : String)
  deriving DecidableEq, Repr

/-- The wording of each refusal. -/
def FileError.message : FileError → String
  | .notFound => "No such file or directory (os error 2)"
  | .exists => "File exists (os error 17)"
  | .notDirectory => "Not a directory (os error 20)"
  | .isDirectory => "Is a directory (os error 21)"
  | .nameTooLong => "File name too long (os error 36)"
  | .nulInName => "file name contained an unexpected NUL byte"
  | .notText => "stream did not contain valid UTF-8"
  | .other wording => wording

/-- The names that lead to a place from the root, the innermost first. -/
abbrev Place := List String

/-- What is at a place. -/
inductive Entry where
  | file (content : List UInt8)
  | directory
  deriving DecidableEq, Repr

/-- All files and directories, apart from the root, and the directory in which relative paths
start. -/
structure Disk where
  entries : List (Place × Entry)
  workingDirectory : Place
  deriving Repr

namespace Disk

/-- What is at a place. The root is always a directory. -/
def entry? (d : Disk) : Place → Option Entry
  | [] => some .directory
  | place => d.entries.lookup place

/-- The content of the file at a place. -/
def file? (d : Disk) (place : Place) : Option (List UInt8) :=
  match d.entry? place with
  | some (.file content) => some content
  | _ => none

/-- Puts something at a place, in front of what was there. -/
def insert (d : Disk) (place : Place) (entry : Entry) : Disk :=
  { d with entries := (place, entry) :: d.entries }

/-- The number of bytes that a name may have. -/
def nameLimit : Nat := 255

/-- The number of bytes from which on a path is too long. -/
def pathLimit : Nat := 4096

/-- Refuses a path that names nothing, whatever is on the disk. -/
def checkPath (path : String) : Except FileError Unit :=
  if path.toList.contains '\x00' then .error .nulInName
  else if path.isEmpty then .error .notFound
  else if pathLimit ≤ path.utf8ByteSize then .error .nameTooLong
  else .ok ()

/-- Refuses a place that is no directory. -/
def checkDirectory (d : Disk) (place : Place) : Except FileError Unit :=
  match d.entry? place with
  | some .directory => .ok ()
  | some (.file _) => .error .notDirectory
  | none => .error .notFound

/-- Refuses a name that is too long. -/
def checkName (name : String) : Except FileError Unit :=
  if nameLimit < name.utf8ByteSize then .error .nameTooLong else .ok ()

/-- Takes one part of a path. -/
def step (d : Disk) (place : Place) (part : String) : Except FileError Place := do
  d.checkDirectory place
  if part = "." then return place
  if part = ".." then return place.tail
  checkName part
  match d.entry? (part :: place) with
  | some _ => return part :: place
  | none => throw .notFound

/-- Takes the parts of a path one after another. -/
def walk (d : Disk) : Place → List String → Except FileError Place
  | place, [] => .ok place
  | place, part :: rest =>
    match d.step place part with
    | .ok next => d.walk next rest
    | .error e => .error e

/-- Where a path starts. -/
def start (d : Disk) (path : String) : Place :=
  if Location.isAbsolute path then [] else d.workingDirectory

/-- The place that a path leads to, if something is there. -/
def locate (d : Disk) (path : String) : Except FileError Place := do
  checkPath path
  d.walk (d.start path) (Location.steps path)

/-- Whether a path leads to something. -/
def isPresent (d : Disk) (path : String) : Bool := (d.locate path).isOk

/-- Whether a path leads to a directory. -/
def isDirectory (d : Disk) (path : String) : Bool :=
  match d.locate path with
  | .ok place => d.entry? place == some .directory
  | .error _ => false

/-- The bytes of a file. -/
def read (d : Disk) (path : String) : Except FileError (List UInt8) := do
  match d.entry? (← d.locate path) with
  | some (.file content) => return content
  | some .directory => throw .isDirectory
  | none => throw .notFound

/-- The directory in which the last part of a path is to be made, and that part. A path without a
last name of its own is refused with `unnamed`. -/
def slot (d : Disk) (path : String) (unnamed : FileError) : Except FileError Place := do
  checkPath path
  let all := Location.parts path
  match all.getLast? with
  | none => throw unnamed
  | some name =>
    let parent ← d.walk (d.start path) all.dropLast
    d.checkDirectory parent
    if name = "." || name = ".." then throw unnamed
    return name :: parent

def makeDirectory (d : Disk) (path : String) : Except FileError Disk := do
  let place ← d.slot path .exists
  checkName (place.headD "")
  match d.entry? place with
  | some _ => throw .exists
  | none => return d.insert place .directory

/-- Writes a file, in place of one that is there. -/
def write (d : Disk) (path : String) (content : List UInt8) : Except FileError Disk := do
  let place ← d.slot path .isDirectory
  if Location.endsInSlash path then throw .isDirectory
  checkName (place.headD "")
  match d.entry? place with
  | some .directory => throw .isDirectory
  | _ => return d.insert place (.file content)

/-- The files of a disk, each once, with what is in them now. -/
def files (d : Disk) : List (Place × List UInt8) :=
  (d.entries.map Prod.fst).eraseDups.filterMap fun place =>
    (d.file? place).map fun content => (place, content)

end Disk

end AnalysisBrowser
