import Traceback.Text.Basic

/-! # Margins

* `dedent`: a text without the margin of spaces and tabs that its lines share. Lines of spaces and tabs
  alone have no say in it and become empty.
* `indent`: a text with something put in front of every line that is not blank.
-/

namespace Traceback.Text
set_option autoImplicit false

def isMarginChar (c : Char) : Bool := c == ' ' || c == '\t'

/-- A line of spaces and tabs alone. -/
def isHollow (line : Text) : Bool := line.all isMarginChar

/-- The longest text that both begin with. -/
def commonPrefix : Text → Text → Text
  | a :: s, b :: t => if a = b then a :: commonPrefix s t else []
  | _, _ => []

/-- What the lines that are not hollow all begin with, of spaces and tabs. -/
def margin (lines : List Text) : Text :=
  match (lines.filter fun line => !isHollow line).map (·.takeWhile isMarginChar) with
  | [] => []
  | first :: others => others.foldl commonPrefix first

def dedentLines (lines : List Text) : List Text :=
  let width := (margin lines).length
  lines.map fun line => if isHollow line then [] else line.drop width

def dedent (t : Text) : Text := joined ['\n'] (dedentLines (cut '\n' t))

/-- `t` with `start` in front of each of its lines that is not blank. -/
def indent (start t : Text) : Text :=
  joined ['\n'] ((cut '\n' t).map fun line => if line.all isBlank then line else start ++ line)

end Traceback.Text
