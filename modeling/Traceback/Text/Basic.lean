/-! # Text

Texts are lists of characters; raw source lines and whole files are lists of bytes.

* `isBlank`: the white space of Unicode, which trimming removes.
* `trimStart`, `trimEnd`, `trim`: a text without the blanks at its ends.
* `cut`: the pieces of a list between the occurrences of a separator; never the empty list.
* `joined`: pieces put together with a separator between them.
* `ofNat`: a number in decimal digits.
-/

namespace Traceback
set_option autoImplicit false

/-- A text is the list of its characters. -/
abbrev Text := List Char

/-- The bytes of a file or of one of its lines. -/
abbrev Bytes := List UInt8

namespace Text

/-! ## Blanks -/

/-- White space, as the Unicode property of that name lists it. -/
def isBlank (c : Char) : Bool :=
  let n := c.toNat
  (9 ≤ n && n ≤ 13) || n == 0x20 || n == 0x85 || n == 0xA0 || n == 0x1680 || (0x2000 ≤ n && n ≤ 0x200A) ||
    n == 0x2028 || n == 0x2029 || n == 0x202F || n == 0x205F || n == 0x3000

/-- `t` without the longest end of it whose characters all satisfy `p`. -/
def dropEndWhile (p : Char → Bool) (t : Text) : Text := (t.reverse.dropWhile p).reverse

def trimStart (t : Text) : Text := t.dropWhile isBlank

def trimEnd (t : Text) : Text := dropEndWhile isBlank t

def trim (t : Text) : Text := trimEnd (trimStart t)

/-! ## Pieces -/

/-- The pieces of a list between the occurrences of `sep`: one more than `sep` occurs. -/
def cut {α : Type} [DecidableEq α] (sep : α) : List α → List (List α)
  | [] => [[]]
  | a :: rest =>
    if a = sep then [] :: cut sep rest
    else
      match cut sep rest with
      | [] => [[a]]
      | piece :: pieces => (a :: piece) :: pieces

/-- The pieces in order, `sep` between any two neighbours. -/
def joined {α : Type} (sep : List α) : List (List α) → List α
  | [] => []
  | [piece] => piece
  | piece :: next :: pieces => piece ++ sep ++ joined sep (next :: pieces)

/-- `t` without `start` in front, when it begins with it. -/
def dropPrefix? {α : Type} [DecidableEq α] : (start t : List α) → Option (List α)
  | [], t => some t
  | _ :: _, [] => none
  | a :: start, b :: t => if a = b then dropPrefix? start t else none

/-! ## Numbers -/

def ofNat (n : Nat) : Text := Nat.toDigits 10 n

end Text
end Traceback
