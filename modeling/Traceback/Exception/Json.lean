import Traceback.Exception.Raised
import Traceback.Json.Record

/-! # Exceptions in JSON

* `Exception.ofJson`: the exception that a text describes.
-/

namespace Traceback
set_option autoImplicit false

open Json

namespace Frame

def members : List (Member Frame) :=
  [{ name := "file_path", required := true, read := fun f => return { f with file := ← Read.text } },
    { name := "line_number", required := true, read := fun f => return { f with line := ← Read.word64 } },
    { name := "end_line_number", read := fun f => return { f with endLine := ← Read.option Read.word64 } },
    { name := "column", read := fun f => return { f with column := ← Read.option Read.word64 } },
    { name := "end_column", read := fun f => return { f with endColumn := ← Read.option Read.word64 } },
    { name := "scope_name", required := true, read := fun f => return { f with scope := ← Read.text } },
    { name := "source_text", read := fun f => return { f with source := ← Read.option Read.text } }]

/-- A frame with `levels` levels of brackets left inside it. -/
def json (levels : Nat) : Read Frame := Read.record "Frame" members levels ⟨[], 0, none, none, none, [], none⟩

end Frame

namespace SyntaxLocation

def members : List (Member SyntaxLocation) :=
  [{ name := "filename", required := true, read := fun l => return { l with file := ← Read.text } },
    { name := "lineno", required := true, read := fun l => return { l with line := ← Read.word64 } },
    { name := "end_lineno", read := fun l => return { l with endLine := ← Read.option Read.word64 } },
    { name := "offset", read := fun l => return { l with offset := ← Read.option Read.word64 } },
    { name := "end_offset", read := fun l => return { l with endOffset := ← Read.option Read.word64 } },
    { name := "text", read := fun l => return { l with text := ← Read.option Read.text } }]

def json (levels : Nat) : Read SyntaxLocation :=
  Read.record "SyntaxLocation" members levels ⟨[], 0, none, none, none, none⟩

end SyntaxLocation

namespace Exception

/-- The link to an exception, or none. -/
def linkOf : Option Exception → Link Raised
  | none => .absent
  | some e => e.link

/-- An exception, with `levels` levels of brackets left from it on. -/
def json : (levels : Nat) → Read Exception
  | 0 => Read.faultAhead .tooDeep
  | levels + 1 =>
    let members : List (Member Exception) :=
      [{ name := "type_name", required := true,
          read := fun e => return { e with error := { e.error with typeName := ← Read.text } } },
        { name := "bases",
          read := fun e => return { e with error := { e.error with bases := ← Read.list (levels - 1) Read.text } } },
        { name := "message", read := fun e => return { e with error := { e.error with message := ← Read.text } } },
        { name := "frames",
          read := fun e => do
            let frames ← Read.list (levels - 1) (Frame.json (levels - 2))
            return { e with error := { e.error with frames } } },
        { name := "cause", read := fun e => return { e with cause := linkOf (← Read.option (json levels)) } },
        { name := "context", read := fun e => return { e with context := linkOf (← Read.option (json levels)) } },
        { name := "suppress_context", read := fun e => return { e with hidesContext := ← Read.bool } },
        { name := "syntax",
          read := fun e => do
            let location ← Read.option (SyntaxLocation.json (levels - 1))
            return { e with error := { e.error with location } } }]
    Read.record "RawException" members levels ⟨⟨[], [], [], [], none⟩, false, .absent, .absent⟩

/-- Brackets in what is read may be nested this deep. -/
def deepest : Nat := 127

def ofJson (t : Text) : Except Fault Exception := parse (json (deepest + 1)) t

end Exception
end Traceback
