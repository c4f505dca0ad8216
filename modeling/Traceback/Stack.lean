import Traceback.Formatter

/-! # Stacks

Which frames of a stack are shown, the outermost call first.

* `Formatter.afterBoundary`: the frames after the first one in a boundary file.
* `Formatter.shown`: the frames that the settings leave.
* `innermost`: the last frames of a stack.
-/

namespace Traceback
set_option autoImplicit false

/-- What follows the first element with `p`, if there is one. -/
def after? {α : Type} (p : α → Bool) : List α → Option (List α)
  | [] => none
  | a :: l => if p a then some l else after? p l

/-- The last `limit` elements, or all of them when `limit` is 0. -/
def innermost {α : Type} (limit : Nat) (l : List α) : List α :=
  if limit = 0 then l else l.drop (l.length - limit)

namespace Formatter

/-- Whether the frame lies in the file that `boundary` names. -/
def liesIn (m : Formatter) (boundary : Text) (f : Frame) : Bool :=
  Path.same (m.resolve f.file) (m.resolve boundary)

def afterBoundary (m : Formatter) (boundary : Text) (stack : List Frame) : List Frame :=
  match after? (m.liesIn boundary) stack, m.settings.missing with
  | some inner, _ => inner
  | none, .showAll => stack
  | none, .hideAll => []

/-- The frames that do more than raise, or all of them when raising frames are not hidden. -/
def withoutRaises (m : Formatter) (stack : List Frame) : List Frame :=
  if m.settings.hideRaises then stack.filter fun f => !m.raises f else stack

def shown (m : Formatter) (stack : List Frame) : List Frame :=
  match m.settings.boundary with
  | none => m.withoutRaises stack
  | some boundary => m.afterBoundary boundary (m.withoutRaises stack)

end Formatter
end Traceback
