import Traceback.Groups
import Traceback.Unicode.Digit
import Traceback.Unicode.Word

/-! # Patterns

Patterns of messages, made of characters, alternatives, optional parts, repeated characters and named
groups.

* `Pattern.runs`: all ways to match the beginning of a text, the preferred ones first; alternatives are
  tried in order, optional parts and repetitions as their greed says.
* `Pattern.groups?`: the groups of the preferred way to match a whole text.
-/

namespace Traceback
set_option autoImplicit false

/-! ## Characters -/

/-- What one character of a message may be. -/
inductive CharSet where
  | exactly (c : Char)
  /-- Every character but the line feed. -/
  | any
  | digit
  | word
  | visible
  | oneOf (cs : Text)
  | noneOf (cs : Text)
  deriving DecidableEq, Repr

def CharSet.mem : CharSet → Char → Bool
  | exactly c, d => c == d
  | any, d => d != '\n'
  | digit, d => Unicode.decimalDigit.mem d
  | word, d => Unicode.wordChar.mem d
  | visible, d => !Text.isBlank d
  | oneOf cs, d => cs.contains d
  | noneOf cs, d => !cs.contains d

/-! ## Patterns -/

inductive Pattern where
  | nothing
  | one (s : CharSet)
  | seq (first second : Pattern)
  /-- `first` is preferred. -/
  | alt (first second : Pattern)
  /-- Matching is preferred to leaving out. -/
  | optional (p : Pattern)
  /-- As many characters as possible when `greedy`, as few as possible otherwise, but `least` at least. -/
  | many (greedy : Bool) (least : Nat) (s : CharSet)
  | named (name : Text) (p : Pattern)
  deriving DecidableEq, Repr

/-- A group that was entered: its name, the text where it begins and the text that is left where it ends. -/
structure Capture where
  name : Text
  start : Text
  stop : Text

/-- The text of the group. -/
def Capture.text (c : Capture) : Text := c.start.take (c.start.length - c.stop.length)

/-- A way to match the beginning of a text: the groups in the order of the pattern, and what is left. -/
structure Run where
  captures : List Capture
  rest : Text

/-- What is left after none, one, two, … characters of the set. -/
def CharSet.rests (s : CharSet) : Text → List Text
  | [] => [[]]
  | c :: t => (c :: t) :: if s.mem c then s.rests t else []

namespace Pattern

def runs : Pattern → Text → List Run
  | nothing, t => [⟨[], t⟩]
  | one s, t =>
    match t with
    | c :: rest => if s.mem c then [⟨[], rest⟩] else []
    | [] => []
  | seq first second, t =>
    (runs first t).flatMap fun r => (runs second r.rest).map fun r' => ⟨r.captures ++ r'.captures, r'.rest⟩
  | alt first second, t => runs first t ++ runs second t
  | optional p, t => runs p t ++ [⟨[], t⟩]
  | many greedy least s, t =>
    let rests := (s.rests t).drop least
    (if greedy then rests.reverse else rests).map fun rest => ⟨[], rest⟩
  | named name p, t => (runs p t).map fun r => ⟨⟨name, t, r.rest⟩ :: r.captures, r.rest⟩

/-- The groups of the preferred match of the whole text. -/
def groups? (p : Pattern) (t : Text) : Option Groups :=
  ((runs p t).find? fun r => r.rest.isEmpty).map fun r =>
    Groups.ofPairs (r.captures.map fun c => (c.name, c.text))

/-! ## Building patterns -/

def all : List Pattern → Pattern
  | [] => nothing
  | [p] => p
  | p :: ps => seq p (all ps)

def literal (s : String) : Pattern := all (s.toList.map fun c => one (.exactly c))

def group (name : String) (p : Pattern) : Pattern := named name.toList p

def zeroOrMore (s : CharSet) : Pattern := many true 0 s

def oneOrMore (s : CharSet) : Pattern := many true 1 s

end Pattern
end Traceback
