import Traceback.Text.Utf8

/-! # Offsets

The interpreter counts the columns of a line in bytes, underlines are drawn in characters.

* `charOffset`: how many characters of the decoded line begin before a byte; a cut inside a character
  counts that character.
* `byteOffset`: the byte at which a character of a line begins.
* `slice`: the characters of a line between two indices.
-/

namespace Traceback
set_option autoImplicit false

/-- Characters in the first `offset` bytes of `line`, or in all of it. -/
def charOffset (line : Bytes) (offset : Nat) : Nat := (Utf8.lossy (line.take offset)).length

/-- Bytes before character `offset` of `line`; the length of the line when it has no such character. -/
def byteOffset (line : Text) (offset : Nat) : Nat := (Utf8.encode (line.take offset)).length

namespace Text

/-- The characters `start` up to but excluding `stop` (0-based), as far as there are any. -/
def slice (t : Text) (start stop : Nat) : Text := (t.take stop).drop start

/-- How many blanks a line begins with. -/
def leadingBlanks (t : Text) : Nat := (t.takeWhile isBlank).length

end Text
end Traceback
