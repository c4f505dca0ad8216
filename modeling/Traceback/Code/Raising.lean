import Traceback.Code.Expression

/-! # Statements that only raise

* `raises`: whether a text is one `raise` statement and nothing else, comments and blank lines apart.
-/

namespace Traceback.Code
set_option autoImplicit false

open Parse

/-- An expression that is no sequence without brackets. -/
def single (n : Nat) : Parse Unit := do
  let e ← expressionList n .plain
  require (e.shape != .tuple true)

/-- `raise`, `raise E` or `raise E from F`, on a line of its own, a semicolon being allowed after an `E`. -/
def raiseOnly (n : Nat) : Parse Unit := do
  expect (.keyword "raise")
  if (← peek) != .lineEnd then
    single n
    if ← accept (.keyword "from") then single n
  let _ ← accept (.sign ";")
  expect .lineEnd
  expect .textEnd

def raises (t : Text) : Bool :=
  match tokens t with
  | none => false
  | some ts => ((raiseOnly (fuelFor ts)).run ⟨ts, 0⟩).isSome

end Traceback.Code
