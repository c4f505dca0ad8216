import Traceback.Exception.Raised
import Traceback.Rule
import Traceback.Stack

/-! # Reports

An exception prepared for display, with its message restated.

* `Report.ofException`: the report of an exception and of all it is linked to.
* `Report.summary`: its last line.
* `Report.trace`: the report as text, the errors that led to it first.
* `Report.display`: the same as it is shown when nothing has caught the exception.
-/

namespace Traceback
set_option autoImplicit false

/-- A restated exception apart from its links; all its frames are kept. -/
structure Restated where
  category : Category
  /-- The message in the interpreter's words. -/
  received : Text
  /-- The name of the rule that restated it, if any did. -/
  rule : Option Text
  groups : Groups
  message : Text
  frames : List Frame
  deriving DecidableEq, Repr

abbrev Report := Linked Restated

namespace Restated

def ofRaised (rules : RuleSet) (r : Raised) : Restated :=
  let c := rules.classify r.category r.message
  { category := r.category
    received := r.message
    rule := c.rule
    groups := c.groups
    message := c.message
    frames := r.allFrames }

/-- The class and the message, or the class alone when there is no message. -/
def summary (r : Restated) : Text :=
  if r.message.isEmpty then r.category.name else r.category.name ++ ": ".toList ++ r.message

/-- The frames shown of the error, at most `limit` of the innermost unless it is 0. -/
def frameTexts (m : Formatter) (limit : Nat) (r : Restated) : List Text :=
  (innermost limit (m.shown r.frames)).map m.format

end Restated

/-- What is said between an error and the one it is tied to. -/
def Tie.connective : Tie → Text
  | .cause => "the above exception caused the following:".toList
  | .context => "the following occurred while handling the above exception:".toList

namespace Report

def ofException (rules : RuleSet) (e : Exception) : Report := e.map (Restated.ofRaised rules)

def summary (r : Report) : Text := r.error.summary

/-- Parts with an empty line between any two, the empty ones left out. -/
def paragraphs (parts : List Text) : Text := Text.joined ['\n', '\n'] (parts.filter fun p => !p.isEmpty)

/-- The text of an error after that of the shown error before it. -/
def passage (m : Formatter) (limit : Nat) (r : Restated) (earlier : Option (Text × Tie)) : Text :=
  let before := match earlier with
    | some (text, tie) => [text, tie.connective]
    | none => []
  paragraphs (before ++ r.frameTexts m limit ++ [r.summary])

def trace (m : Formatter) (limit : Nat) (r : Report) : Text := r.recount (passage m limit)

/-- Red, for terminals, and back to normal. -/
def red (t : Text) : Text := "\x1b[31m".toList ++ t ++ "\x1b[0m".toList

def display (m : Formatter) (r : Report) : Text :=
  let text := r.trace m m.settings.limit
  if m.settings.color then red text else text

end Report
end Traceback
