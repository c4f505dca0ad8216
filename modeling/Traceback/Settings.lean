import Traceback.Template

/-! # Settings of the display -/

namespace Traceback
set_option autoImplicit false

/-- What is shown of a stack that never enters the boundary file. -/
inductive MissingBoundary where
  | hideAll | showAll
  deriving DecidableEq, Repr

namespace MissingBoundary

def label : MissingBoundary → String
  | hideAll => "hide-all"
  | showAll => "show-all"

def ofSpelling? (t : Text) : Option MissingBoundary := [hideAll, showAll].find? fun m => m.label.toList = t

end MissingBoundary

structure Settings where
  /-- How the location line of a frame reads. -/
  template : Template := .standard
  /-- Blanks in front of source lines and their underlines. -/
  indent : Nat := 4
  /-- Whether the trace is shown in red. -/
  color : Bool := false
  /-- How many of the innermost frames of an error are shown; all of them when it is 0. -/
  limit : Nat := 0
  /-- Whether frames whose statement only raises are hidden. -/
  hideRaises : Bool := true
  /-- Only frames after the first one in this file are shown. -/
  boundary : Option Text := none
  missing : MissingBoundary := .hideAll
  deriving DecidableEq, Repr

end Traceback
