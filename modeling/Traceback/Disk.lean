import Traceback.FileTree
import Traceback.Source

/-! # Reading from files

* `Disk`: what can be learned of the files of a system without changing them.
* `Disk.line`: a line of a file.
* `Snapshot`: what was found at some paths, which is a disk again.
* `LineCache`: the lines of the files that were looked at, as they were then.
-/

namespace Traceback
set_option autoImplicit false

structure Disk where
  read : Text → Except FileFault Bytes
  /-- Whether a path leads to a file, and not to a directory. -/
  isFile : Text → Except FileFault Bool
  /-- The absolute path of what a path leads to. -/
  resolve : Text → Text
  /-- The working directory. -/
  directory : Text

def FileTree.disk (t : FileTree) : Disk := ⟨t.read, t.isFile, t.resolve, t.workingDirectory⟩

namespace Disk

/-- The lines of a file, if it can be read. -/
def lines? (d : Disk) (file : Text) : Option (List Bytes) :=
  match d.read file with
  | .ok content => some (splitLines content)
  | .error _ => none

/-- Whether there may be such a line at all, so that it is worth looking. -/
def worthLooking (file : Text) (n : Nat) : Bool := !file.isEmpty && n != 0

/-- Line `n` of a file, the first being line 1. -/
def line (d : Disk) (file : Text) (n : Nat) : Option Bytes :=
  if worthLooking file n then (d.lines? file).bind fun lines => lineAt lines n else none

end Disk

/-! ## Snapshots -/

/-- What was found at a path. -/
structure Finding where
  content : Except FileFault Bytes
  isFile : Except FileFault Bool
  resolved : Text

structure Snapshot where
  findings : List (Text × Finding) := []
  directory : Text

/-- A path that was not looked at leads nowhere. -/
def Snapshot.disk (s : Snapshot) : Disk where
  read path := ((s.findings.lookup path).map (·.content)).getD (.error .notFound)
  isFile path := ((s.findings.lookup path).map (·.isFile)).getD (.error .notFound)
  resolve path := ((s.findings.lookup path).map (·.resolved)).getD (Path.absolute s.directory path)
  directory := s.directory

/-! ## Remembering files -/

/-- The files looked at so far, each as it was at the first look; those that could not be read as well. -/
structure LineCache where
  files : List (Text × Option (List Bytes)) := []

namespace LineCache

/-- The lines of a file as they are remembered, or else as they are. -/
def lines? (c : LineCache) (d : Disk) (file : Text) : Option (List Bytes) :=
  match c.files.lookup file with
  | some remembered => remembered
  | none => d.lines? file

/-- What a look at line `n` of a file shows. -/
def line (c : LineCache) (d : Disk) (file : Text) (n : Nat) : Option Bytes :=
  if Disk.worthLooking file n then (c.lines? d file).bind fun lines => lineAt lines n else none

/-- The cache after a look at line `n` of a file. -/
def look (c : LineCache) (d : Disk) (file : Text) (n : Nat) : LineCache :=
  if Disk.worthLooking file n && (c.files.lookup file).isNone then ⟨(file, d.lines? file) :: c.files⟩ else c

/-- The cache after several looks. -/
def lookAll (c : LineCache) (d : Disk) (looks : List (Text × Nat)) : LineCache :=
  looks.foldl (fun c look => c.look d look.1 look.2) c

end LineCache
end Traceback
