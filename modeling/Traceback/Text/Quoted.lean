import Traceback.Text.Utf8
import Traceback.Unicode.Printable

/-! # Quoted texts

* `Text.quoted`: a text between double quotes, with escapes for what would not be seen as itself.
-/

namespace Traceback.Text
set_option autoImplicit false

/-- The code point in braces. -/
def codePoint (c : Char) : Text := "\\u\x7b".toList ++ Nat.toDigits 16 c.toNat ++ ['}']

def quotedChar (c : Char) : Text :=
  if c = '\x00' then ['\\', '0']
  else if c = '\t' then ['\\', 't']
  else if c = '\r' then ['\\', 'r']
  else if c = '\n' then ['\\', 'n']
  else if c = '\\' ∨ c = '"' then ['\\', c]
  else if Unicode.graphemeExtend.mem c || Unicode.unprintable.mem c then codePoint c
  else [c]

def quoted (t : Text) : Text := '"' :: t.flatMap quotedChar ++ ['"']

end Traceback.Text
