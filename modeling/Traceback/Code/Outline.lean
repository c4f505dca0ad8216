import Traceback.Code.Expression

/-! # Outlines of expressions

* `Outline`: which parts of an expression an underline may single out.
* `outline?`: the outline of a text that is an expression.
-/

namespace Traceback.Code
set_option autoImplicit false

inductive Outline where
  /-- An arithmetic or bitwise operation: where its left operand stops and its right one starts. -/
  | operation (left right : Nat)
  /-- A subscript: where the value before the bracket stops, and where all of it does. -/
  | subscript (base stop : Nat)
  | other
  deriving DecidableEq, Repr

namespace Outline

def ofNode (e : Node) : Outline :=
  match e.shape with
  | .operation left right => .operation left right
  | .subscript base => .subscript base e.stop
  | _ => .other

end Outline

open Parse in
/-- A text that is one expression and nothing else. -/
def wholeExpression (n : Nat) : Parse Node := do
  let e ← expressionList n .plain
  let _ ← accept .lineEnd
  require ((← peek) == .textEnd)
  return e

def outline? (t : Text) : Option Outline := do
  let ts ← tokens t
  let (e, _) ← (wholeExpression (fuelFor ts)).run ⟨ts, 0⟩
  return Outline.ofNode e

end Traceback.Code
