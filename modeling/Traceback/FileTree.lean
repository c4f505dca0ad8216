import Traceback.Path
import Traceback.Text.Utf8

/-! # File trees

Files, directories and symbolic links, as a program meets them.

* `Place`: where something lies, as the names on the way from the root.
* `FileTree.walk`: what a path leads to, step by step, links followed.
* `FileTree.read`, `write`, `makeDirectories`, `remove`, `symlink`: the operations on a tree.
* `FileTree.canonical?`, `FileTree.resolve`: the path of a place without links on the way.
-/

namespace Traceback
set_option autoImplicit false

/-! ## Trees -/

abbrev Place := List Text

inductive Entry where
  | directory
  | file (content : Bytes)
  | link (target : Text)
  deriving DecidableEq, Repr

/-- Why an operation on files fails. -/
inductive FileFault where
  | notFound | alreadyExists | notDirectory | isDirectory | tooManyLinks | nameTooLong | nulInName
  /-- One that file trees do not have, as the operating system describes it. -/
  | other (words : Text) (code : Nat)
  deriving DecidableEq, Repr

/-- The words of the operating system. -/
def FileFault.message : FileFault → Text
  | notFound => "No such file or directory (os error 2)".toList
  | alreadyExists => "File exists (os error 17)".toList
  | notDirectory => "Not a directory (os error 20)".toList
  | isDirectory => "Is a directory (os error 21)".toList
  | nameTooLong => "File name too long (os error 36)".toList
  | tooManyLinks => "Too many levels of symbolic links (os error 40)".toList
  | nulInName => "file name contained an unexpected NUL byte".toList
  | other words code => words ++ " (os error ".toList ++ Text.ofNat code ++ [')']

/-- What lies where; every place but the root has one entry at most. -/
structure FileTree where
  entries : List (Place × Entry) := []
  /-- Where relative paths begin. -/
  directory : Place := []

namespace FileTree

def textOf (p : Place) : Text := if p.isEmpty then ['/'] else p.flatMap ('/' :: ·)

def entry? (t : FileTree) (p : Place) : Option Entry := if p.isEmpty then some .directory else t.entries.lookup p

def put (t : FileTree) (p : Place) (e : Entry) : FileTree :=
  { t with entries := (p, e) :: t.entries.filter fun other => other.1 != p }

/-! ## Walking -/

inductive Step where
  /-- A dot, or a separator at the end: what has been reached is a directory. -/
  | stay
  | up
  | enter (name : Text)
  deriving DecidableEq, Repr

def step? (piece : Text) : Option Step :=
  if piece = [] then none
  else if piece = ['.'] then some .stay
  else if piece = ['.', '.'] then some .up
  else some (.enter piece)

def steps (path : Text) : List Step :=
  (Text.cut '/' path).filterMap step? ++ if path.getLast? = some '/' then [.stay] else []

/-- Where a path leads: to an entry, or to a free place in a directory. Or it breaks off at a place where
nothing lies and goes on after it. -/
inductive Reached where
  | entry (place : Place) (e : Entry)
  | free (place : Place)
  | gap (place : Place)
  deriving DecidableEq, Repr

/-- Follows `todo` from `place`, where `e` lies. At most `links` links are followed; one at the very end only
when `follow` holds. -/
def walkFrom (t : FileTree) (follow : Bool) (links : Nat) (place : Place) (e : Entry) (todo : List Step) :
    Except FileFault Reached :=
  match todo with
  | [] => .ok (.entry place e)
  | step :: rest =>
    if e != .directory then .error .notDirectory
    else
      match step with
      | .stay => walkFrom t follow links place e rest
      | .up => walkFrom t follow links place.dropLast .directory rest
      | .enter name =>
        if (Utf8.encode name).length > 255 then .error .nameTooLong
        else
          match t.entry? (place ++ [name]) with
          | none => .ok (if rest.isEmpty then .free (place ++ [name]) else .gap (place ++ [name]))
          | some (.link target) =>
            if rest.isEmpty && !follow then .ok (.entry (place ++ [name]) (.link target))
            else
              match links with
              | 0 => .error .tooManyLinks
              | links + 1 =>
                walkFrom t follow links (if Path.isAbsolute target then [] else place) .directory
                  (steps target ++ rest)
          | some found => walkFrom t follow links (place ++ [name]) found rest
termination_by (links, todo.length)

/-- What `path` leads to. -/
def walk (t : FileTree) (follow : Bool) (path : Text) : Except FileFault Reached :=
  if path.contains '\x00' then .error .nulInName
  else if path = [] then .error .notFound
  else if (Utf8.encode path).length ≥ 4096 then .error .nameTooLong
  else walkFrom t follow 40 (if Path.isAbsolute path then [] else t.directory) .directory (steps path)

/-! ## Operations -/

def read (t : FileTree) (path : Text) : Except FileFault Bytes :=
  match t.walk true path with
  | .error f => .error f
  | .ok (.free _) | .ok (.gap _) => .error .notFound
  | .ok (.entry _ (.file content)) => .ok content
  | .ok (.entry _ _) => .error .isDirectory

/-- `content` becomes all that the file holds; the file is made when it does not exist. -/
def write (t : FileTree) (path : Text) (content : Bytes) : Except FileFault FileTree :=
  match t.walk true path with
  | .error f => .error f
  | .ok (.gap _) => .error (if path.getLast? = some '/' then .isDirectory else .notFound)
  | .ok (.free place) => .ok (t.put place (.file content))
  | .ok (.entry place (.file _)) => .ok (t.put place (.file content))
  | .ok (.entry _ _) => .error .isDirectory

/-- Whether a file lies there, links followed. -/
def isFile (t : FileTree) (path : Text) : Except FileFault Bool :=
  match t.walk true path with
  | .error f => .error f
  | .ok (.free _) | .ok (.gap _) => .error .notFound
  | .ok (.entry _ e) => .ok (e != .directory)

def isDirectory (t : FileTree) (path : Text) : Bool :=
  match t.walk true path with
  | .ok (.entry _ .directory) => true
  | _ => false

def makeDirectory (t : FileTree) (path : Text) : Except FileFault FileTree :=
  match t.walk false path with
  | .error f => .error f
  | .ok (.gap _) => .error .notFound
  | .ok (.free place) => .ok (t.put place .directory)
  | .ok (.entry _ _) => .error .alreadyExists

/-- That a directory lies at the path already is no fault in making it. -/
def excused (t : FileTree) (path : Text) (f : FileFault) : Except FileFault Unit :=
  if f = .alreadyExists ∧ t.isDirectory path = true then .ok () else .error f

/-- The directory of these components, innermost first, and all those it lies in. What was made
stays when one cannot be made. -/
def makeAll (t : FileTree) : List Path.Component → FileTree × Except FileFault Unit
  | [] => (t, .ok ())
  | .root :: _ => (t, .ok ())
  | c :: above =>
    let path := Path.ofComponents (c :: above).reverse
    match t.makeDirectory path with
    | .ok t => (t, .ok ())
    | .error .notFound =>
      match makeAll t above with
      | (t, .error f) => (t, .error f)
      | (t, .ok ()) =>
        match t.makeDirectory path with
        | .ok t => (t, .ok ())
        | .error f => (t, t.excused path f)
    | .error f => (t, t.excused path f)

/-- Makes the directory of a path, as far as that is possible. -/
def makeWay (t : FileTree) (path : Text) : FileTree × Except FileFault Unit :=
  t.makeAll (Path.components path).reverse

def makeDirectories (t : FileTree) (path : Text) : Except FileFault FileTree :=
  match t.makeWay path with
  | (t, .ok ()) => .ok t
  | (_, .error f) => .error f

/-- Removes what lies there with all below it; a link itself and not what it leads to. -/
def remove (t : FileTree) (path : Text) : Except FileFault FileTree :=
  match t.walk false path with
  | .error f => .error f
  | .ok (.free _) | .ok (.gap _) => .error .notFound
  | .ok (.entry place _) =>
    .ok { t with entries := t.entries.filter fun other => !place.isPrefixOf other.1 }

def symlink (t : FileTree) (path target : Text) : Except FileFault FileTree :=
  match t.walk false path with
  | .error f => .error f
  | .ok (.gap _) => .error .notFound
  | .ok (.free place) => .ok (t.put place (.link target))
  | .ok (.entry _ _) => .error .alreadyExists

/-! ## Resolution -/

def workingDirectory (t : FileTree) : Text := textOf t.directory

/-- The path, without links and dots, of what `path` leads to. -/
def canonical? (t : FileTree) (path : Text) : Option Text :=
  match t.walk true path with
  | .ok (.entry place _) => some (textOf place)
  | _ => none

/-- The canonical path where there is one, else the path made absolute. -/
def resolve (t : FileTree) (path : Text) : Text :=
  match t.canonical? path with
  | some found => found
  | none => Path.absolute t.workingDirectory path

end FileTree
end Traceback
