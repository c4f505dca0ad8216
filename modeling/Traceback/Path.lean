import Traceback.Text.Basic

/-! # Paths

Paths are texts; what they name is decided by their components.

* `Path.components`: the components of a path, repeated separators and inner dots dropped.
* `Path.absolute`: a path made absolute by its text alone.
* `Path.relativeTo?`: what remains of a path below a directory.
-/

namespace Traceback
set_option autoImplicit false

namespace Path

inductive Component where
  | root
  /-- A dot at the front; elsewhere a dot is no component. -/
  | here
  | up
  | name (t : Text)
  deriving DecidableEq, Repr

def Component.text : Component → Text
  | root => ['/']
  | here => ['.']
  | up => ['.', '.']
  | name t => t

/-! ## Components -/

/-- The component that the text between two separators stands for. -/
def component? (piece : Text) : Option Component :=
  if piece = [] ∨ piece = ['.'] then none
  else if piece = ['.', '.'] then some .up
  else some (.name piece)

def isAbsolute (p : Text) : Bool := p.head? == some '/'

def components (p : Text) : List Component :=
  let pieces := Text.cut '/' p
  let found := pieces.filterMap component?
  if isAbsolute p then .root :: found
  else if pieces.head? = some ['.'] then .here :: found
  else found

/-- Two paths are the same when their components are. -/
def same (p q : Text) : Bool := components p == components q

/-! ## Texts -/

/-- `p` with `piece` below it. -/
def below (p piece : Text) : Text := if p.getLast? = some '/' then p ++ piece else p ++ '/' :: piece

/-- The components below `start`. -/
def descend (start : Text) (cs : List Component) : Text := cs.foldl (fun p c => below p c.text) start

/-- The components as a path, `root` only at the front. -/
def ofComponents : List Component → Text
  | [] => []
  | .root :: cs => descend ['/'] cs
  | c :: cs => descend c.text cs

/-- `p` as an absolute path, seen from `directory`. Nothing is looked up, so `..` stays; a separator at the
end stays too, and so do exactly two at the front. The empty path stays empty. -/
def absolute (directory p : Text) : Text :=
  if p = [] then []
  else
    let found := (components p).filter fun c => c != .here && c != .root
    let start :=
      if isAbsolute p then if p.take 2 = ['/', '/'] ∧ p.take 3 ≠ ['/', '/', '/'] then ['/', '/'] else ['/']
      else directory
    let whole := descend start found
    if p.getLast? = some '/' ∧ whole.getLast? ≠ some '/' then whole ++ ['/'] else whole

/-- What remains of `p` below `directory`. -/
def relativeTo? (directory p : Text) : Option Text :=
  (Text.dropPrefix? (components directory) (components p)).map ofComponents

/-- The directory that a path lies in; the root and the empty path lie in none. -/
def parent? (p : Text) : Option Text :=
  match (components p).reverse with
  | [] | .root :: _ => none
  | _ :: above => some (ofComponents above.reverse)

end Path
end Traceback
