import Traceback.Json.Fault

/-! # Reading JSON texts

* `Cursor`: what is left of a text, and where it begins.
* `Read`: reading from a cursor; it gives a value or the first fault.
* `Read.faultHere`, `Read.faultAhead`: a fault before the next character and behind its first byte.
-/

namespace Traceback.Json
set_option autoImplicit false

structure Cursor where
  rest : Text
  place : Place

def Cursor.start (t : Text) : Cursor := ⟨t, ⟨1, 0⟩⟩

abbrev Read := StateT Cursor (Except Fault)

namespace Read

variable {α : Type}

def peek : Read (Option Char) := do return (← get).rest.head?

/-- Takes the next character, if there is one. -/
def next : Read (Option Char) := fun c =>
  match c.rest with
  | [] => .ok (none, c)
  | d :: rest => .ok (some d, ⟨rest, c.place.after d⟩)

def skip : Read Unit := do
  let _ ← next

def faultAt (place : Place) (reason : Reason) : Read α := throw ⟨reason, place⟩

def faultHere (reason : Reason) : Read α := do faultAt (← get).place reason

/-- The place behind one byte of what is left. -/
def ahead : Read Place := do
  let c ← get
  return match c.rest with
    | [] => c.place
    | d :: _ => c.place.within d 1

def faultAhead (reason : Reason) : Read α := do faultAt (← ahead) reason

def isSpace (c : Char) : Bool := c == ' ' || c == '\n' || c == '\t' || c == '\r'

/-- The text and place after the white space. -/
def skipSpaces : Text → Place → Cursor
  | [], p => ⟨[], p⟩
  | c :: rest, p => if isSpace c then skipSpaces rest (p.after c) else ⟨c :: rest, p⟩

def spaces : Read Unit := modify fun c => skipSpaces c.rest c.place

/-- Skips white space and looks at what follows. -/
def token : Read (Option Char) := do
  spaces
  peek

/-- The rest of a word whose first letter has been taken. -/
def word : List Char → Read Unit
  | [] => pure ()
  | c :: letters => do
    match ← next with
    | none => faultHere (.ended .value)
    | some d => if d = c then word letters else faultHere .expectedIdent

end Read
end Traceback.Json
