import Traceback.Text.Basic

/-! # The log

What a program tells its log while it works, apart from what it says itself.

* `Event`: what is told, with its level, its words and its fields.
* `Log`: how a library writes events, and which ones the surroundings of the program ask for.
* `Log.lines`: what is written of some events.
-/

namespace Traceback
set_option autoImplicit false

/-- How much is told: at each level also what is told at those before it. -/
inductive LogLevel where
  | warning | debug | trace
  deriving DecidableEq, Repr

namespace LogLevel

def rank : LogLevel → Nat
  | warning => 0
  | debug => 1
  | trace => 2

/-- Whether what belongs to level `l` is told at level `most`. -/
def within (l most : LogLevel) : Bool := l.rank ≤ most.rank

end LogLevel

/-- Faults are told in their own words, categories by their names. -/
inductive Event where
  | activated
  | restated (rule category : Text)
  | unmatched (category : Text)
  | handling (category : Text) (rule : Option Text)
  /-- A file of source code cannot be read. -/
  | unavailable (file words : Text)
  | boundaryMissing (boundary : Text)
  /-- Nothing is singled out in a part of a line. -/
  | unfocused (segment : Text)
  | emptyUnderline (file : Text) (line : UInt64)
  | wideUnderline (file : Text) (line : UInt64)
  /-- An exception cannot be shown. -/
  | unwritten (words : Text)
  | saved (path : Text)
  | unsaved (path words : Text)
  | unloaded (path words : Text)
  deriving DecidableEq, Repr

namespace Event

def level : Event → LogLevel
  | unwritten _ | unsaved _ _ | unloaded _ _ => .warning
  | unfocused _ | emptyUnderline _ _ => .trace
  | _ => .debug

def words : Event → String
  | activated => "engine activated"
  | restated _ _ => "message classified"
  | unmatched _ => "no rule matched, keeping raw message"
  | handling _ _ => "handling uncaught exception"
  | unavailable _ _ => "source file unavailable"
  | boundaryMissing _ => "boundary file not in stack, hiding all frames"
  | unfocused _ => "no primary anchor for segment"
  | emptyUnderline _ _ => "empty anchor omitted"
  | wideUnderline _ _ => "underline wider than the source line, omitted"
  | unwritten _ => "could not write exception to stderr"
  | saved _ => "saved last trace"
  | unsaved _ _ => "could not save last trace"
  | unloaded _ _ => "could not load last trace"

/-- Names and values of what is told besides the words. -/
def fields : Event → List (String × Text)
  | activated => []
  | restated rule category => [("rule", rule), ("category", category)]
  | unmatched category => [("category", category)]
  | handling category none => [("category", category), ("rule", "None".toList)]
  | handling category (some rule) => [("category", category), ("rule", "Some(\"".toList ++ rule ++ "\")".toList)]
  | unavailable file words => [("file", file), ("err", words)]
  | boundaryMissing boundary => [("boundary", boundary)]
  | unfocused segment => [("segment", segment)]
  | emptyUnderline file line | wideUnderline file line => [("file", file), ("line", Text.ofNat line.toNat)]
  | unwritten words => [("err", words)]
  | saved path => [("path", path)]
  | unsaved path words | unloaded path words => [("path", path), ("err", words)]

end Event

structure Log where
  /-- The events that the surroundings ask for, if they ask for any; else the level decides. -/
  asked? : Option (Event → Bool) := none
  /-- What arrives of an event in the place of the log, which may say more of the moment it was told. -/
  line : (moment : Nat) → Event → Text

namespace Log

/-- Nothing is written. -/
def silent : Log := ⟨some fun _ => false, fun _ _ => []⟩

def admits (g : Log) (most : LogLevel) (e : Event) : Bool :=
  match g.asked? with
  | some asked => asked e
  | none => e.level.within most

/-- What is written of these events, which begin at a moment. -/
def lines (g : Log) (most : LogLevel) : (moment : Nat) → List Event → Text
  | _, [] => []
  | moment, e :: rest => (if g.admits most e then g.line moment e else []) ++ lines g most (moment + 1) rest

end Log
end Traceback
