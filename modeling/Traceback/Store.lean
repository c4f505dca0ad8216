import Traceback.Disk
import Traceback.Store.Record

/-! # The store

A file that keeps the report of the last error, so that it can be shown again.

* `Store.save`, `Store.load`: writing and reading the record at a path.
* `Store.lastTrace`: the kept report as text, or a notice.
* `Store.standardPath`: where the record lies unless another path is given.
-/

namespace Traceback
set_option autoImplicit false

/-- Why a report cannot be kept or read back. -/
inductive StoreFault where
  | missing
  | record (f : RecordFault)
  | files (f : FileFault)
  deriving DecidableEq, Repr

def StoreFault.message : StoreFault → Text
  | missing => "no trace has been saved".toList
  | record f => f.message
  | files f => "trace store i/o error: ".toList ++ f.message

namespace Store

/-! ## Writing and reading -/

/-- `content` in the file at `path`, the directories on the way made; what was made stays when the file
cannot be written. -/
def place (t : FileTree) (path : Text) (content : Bytes) : FileTree × Except FileFault Unit :=
  match t.makeWay ((Path.parent? path).getD []) with
  | (t, .error f) => (t, .error f)
  | (t, .ok ()) =>
    match t.write path content with
    | .error f => (t, .error f)
    | .ok t => (t, .ok ())

def save (t : FileTree) (path : Text) (r : Report) : FileTree × Except FileFault Unit :=
  place t path (Record.encode r)

def load (d : Disk) (path : Text) : Except StoreFault Report :=
  match d.read path with
  | .error .notFound => .error .missing
  | .error f => .error (.files f)
  | .ok content =>
    match Record.decode content with
    | .error f => .error (.record f)
    | .ok r => .ok r

/-! ## Showing the last report -/

def noTrace : Text := "no trace was found".toList

def unreadable : Text := "error loading trace".toList

/-- All frames of the kept report are shown. -/
def lastTrace (d : Disk) (path : Text) (m : Formatter) : Text :=
  match load d path with
  | .ok r => r.trace m 0
  | .error .missing => noTrace
  | .error _ => unreadable

/-! ## The standard path -/

/-- The directories that the surroundings of a program name. -/
structure Surroundings where
  cacheHome : Option Text
  home : Option Text
  temporary : Text

/-- Where programs keep what they can do without. -/
def Surroundings.cache (s : Surroundings) : Text :=
  match s.cacheHome.filter Path.isAbsolute, s.home with
  | some directory, _ => directory
  | none, some home => Path.below home ".cache".toList
  | none, none => s.temporary

def standardPath (s : Surroundings) : Text :=
  Path.below (Path.below s.cache "tinyerr".toList) "last_traceback".toList

end Store
end Traceback
