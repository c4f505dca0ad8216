import Traceback.Text.Basic

/-! # Source lines

* `splitLines`: the lines of a file, without what ends them.
* `Sources`: files held in memory by name.
* `Sources.line`: line `n` of a file, counted from 1.
-/

namespace Traceback
set_option autoImplicit false

/-! ## Lines of a file -/

def lineFeed : UInt8 := 10
def carriageReturn : UInt8 := 13

/-- `l` without a last element `a`. -/
def dropLastIf {α : Type} [DecidableEq α] (a : α) : List α → List α
  | [] => []
  | [b] => if b = a then [] else [b]
  | b :: c :: l => b :: dropLastIf a (c :: l)

/-- The lines of a file; a line feed at its end ends the last line and begins none. -/
def splitLines (file : Bytes) : List Bytes :=
  match file with
  | [] => []
  | _ :: _ => (Text.cut lineFeed (dropLastIf lineFeed file)).map (dropLastIf carriageReturn)

/-- Line `n` of a file, the first being line 1. -/
def lineAt (lines : List Bytes) : Nat → Option Bytes
  | 0 => none
  | n + 1 => lines[n]?

/-! ## Files in memory -/

/-- Files by name, each as its lines. -/
structure Sources where
  files : List (Text × List Bytes) := []

namespace Sources

/-- `files` with the lines of `name` added or replaced. -/
def set (name : Text) (lines : List Bytes) : List (Text × List Bytes) → List (Text × List Bytes)
  | [] => [(name, lines)]
  | entry :: others =>
    if entry.1 = name then (name, lines) :: others else entry :: set name lines others

def insert (s : Sources) (name : Text) (file : Bytes) : Sources := ⟨set name (splitLines file) s.files⟩

def line (s : Sources) (name : Text) (n : Nat) : Option Bytes :=
  match s.files.lookup name with
  | none => none
  | some lines => lineAt lines n

end Sources
end Traceback
