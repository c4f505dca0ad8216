import Traceback.Text.Offset

/-! # Frames

* `Frame`: one level of the call stack when an error was raised.
* `SyntaxLocation`: what an error about source code says of the place.
* `Frame.ofSyntaxLocation`: such a place as a frame of its own.
-/

namespace Traceback
set_option autoImplicit false

/-- One level of the call stack. Lines count from 1, columns are bytes into the line counted from 0, and
`source` is the line as it was when the error was raised. -/
structure Frame where
  file : Text
  line : UInt64
  endLine : Option UInt64 := none
  column : Option UInt64 := none
  endColumn : Option UInt64 := none
  scope : Text
  source : Option Text := none
  deriving DecidableEq, Repr

/-- The place of an error in source code. Lines and offsets count from 1, offsets in characters of `text`. -/
structure SyntaxLocation where
  file : Text
  line : UInt64
  endLine : Option UInt64 := none
  offset : Option UInt64 := none
  endOffset : Option UInt64 := none
  text : Option Text := none
  deriving DecidableEq, Repr

namespace Frame

/-- The last line of the failing expression, never before the first. -/
def lastLine (f : Frame) : UInt64 := max (f.endLine.getD f.line) f.line

/-- Whether the failing expression spans several lines. -/
def isMultiline (f : Frame) : Bool := f.lastLine != f.line

/-- The scope of code outside any function. -/
def moduleScope : Text := "<module>".toList

end Frame

namespace SyntaxLocation

def isLineEnd (c : Char) : Bool := c == '\n' || c == '\r'

/-- The recorded text without what ends its line. -/
def lineText (l : SyntaxLocation) : Option Text := l.text.map (Text.dropEndWhile isLineEnd)

/-- The column of an offset, counted in bytes of the text where there is one. -/
def column (l : SyntaxLocation) (offset : UInt64) : UInt64 :=
  let index := if offset = 0 then 0 else offset - 1
  match l.lineText with
  | none => index
  | some text => UInt64.ofNat (byteOffset text index.toNat)

/-- The first offset after the failing part, which is one character long unless it is known to be longer. -/
def stop (l : SyntaxLocation) (start : UInt64) : UInt64 :=
  match l.endOffset with
  | some stop => if start < stop then stop else start + 1
  | none => start + 1

/-- The offset, when it denotes a character. -/
def start? (l : SyntaxLocation) : Option UInt64 := l.offset.filter (0 < ·)

end SyntaxLocation

/-- The place of an error in source code as a frame, with columns as in any other. -/
def Frame.ofSyntaxLocation (l : SyntaxLocation) : Frame where
  file := l.file
  line := l.line
  endLine := some (l.endLine.getD l.line)
  column := l.start?.map l.column
  endColumn := l.start?.map fun start => l.column (l.stop start)
  scope := Frame.moduleScope
  source := l.lineText

end Traceback
