import Traceback.Frame
import Traceback.Path
import Traceback.Settings
import Traceback.Text.Margin
import Traceback.Underline
import Traceback.Code.Raising

/-! # Formatting frames

A frame is shown as its location line and, where the source line is known, that line without the blanks
around it and an underline beneath it.

* `Formatter`: the settings, where source lines come from, and how paths are resolved.
* `Formatter.location`, `Formatter.codeBlock`, `Formatter.format`: the parts of a frame and all of it.
* `Formatter.raises`: whether a frame only raises.
-/

namespace Traceback
set_option autoImplicit false

structure Formatter where
  settings : Settings
  /-- The line of a file with a number, lines counted from 1. -/
  lines : Text → Nat → Option Bytes
  /-- The absolute path of what a path names. -/
  resolve : Text → Text
  /-- The working directory. -/
  directory : Text

namespace Formatter

/-! ## Location -/

/-- Whether a file name stands for source code that is no file. -/
def isPseudoFile (file : Text) : Bool := file.head? == some '<' && file.getLast? == some '>'

/-- The file's path below the working directory, or its absolute path when it lies elsewhere. -/
def shortPath (m : Formatter) (file : Text) : Text :=
  if isPseudoFile file then file
  else
    let path := m.resolve file
    match [m.resolve m.directory, m.directory].findSome? fun directory => Path.relativeTo? directory path with
    | some rest => rest
    | none => path

/-- Stands for a number that a frame does not carry. -/
def unknown : Text := ['?']

def number (n : UInt64) : Text := Text.ofNat n.toNat

def field (m : Formatter) (f : Frame) : Field → Text
  | .file => m.shortPath f.file
  | .name => f.scope
  | .line => number f.line
  | .endLine => (f.endLine.map number).getD unknown
  | .column => (f.column.map number).getD unknown
  | .endColumn => (f.endColumn.map number).getD unknown

def location (m : Formatter) (f : Frame) : Text := m.settings.template.render (m.field f)

/-! ## Source line -/

/-- The frame's line, as captured when no source provides it. -/
def rawLine (m : Formatter) (f : Frame) : Option Bytes :=
  match m.lines f.file f.line.toNat with
  | some line => some line
  | none => f.source.map Utf8.encode

/-- The underline of a frame with columns; `line` is the text of `raw`. An expression of several lines is
marked up to the end of its first line. -/
def underline? (f : Frame) (raw : Bytes) (line : Text) : Option Underline :=
  match f.column, f.endColumn with
  | some column, some endColumn =>
    let start := charOffset raw column.toNat + 1
    if f.isMultiline then some (Underline.ofLine line start (line.trimEnd.length + 1))
    else some (Underline.ofSegment line start (charOffset raw endColumn.toNat + 1))
  | _, _ => none

/-- The markers beneath `shown`, unless there are none or they reach beyond it. -/
def markers? (shown : Text) (u : Underline) : Option Text :=
  if u.isEmpty || shown.length < u.width then none else some u.render

/-- The source line and its underline; empty when the line is unknown or blank. -/
def codeBlock (m : Formatter) (f : Frame) : Text :=
  match m.rawLine f with
  | none => []
  | some raw =>
    let line := Utf8.lossy raw
    let shown := line.trim
    if shown.isEmpty then []
    else
      let block :=
        match (underline? f raw line).bind (markers? shown) with
        | some markers => shown ++ '\n' :: markers
        | none => shown
      Text.indent (List.replicate m.settings.indent ' ') block

def format (m : Formatter) (f : Frame) : Text :=
  let code := m.codeBlock f
  if code.isEmpty then m.location f else m.location f ++ '\n' :: '\n' :: code

/-! ## Statements -/

/-- `count` lines from line `n` on, decoded; none when one of them is missing. -/
def linesFrom (lines : Nat → Option Bytes) : (count n : Nat) → Option (List Text)
  | 0, _ => some []
  | count + 1, n =>
    match lines n with
    | none => none
    | some line => (linesFrom lines count (n + 1)).map (Utf8.lossy line :: ·)

/-- The lines of the frame's statement; only the first may be the captured one. -/
def statement? (m : Formatter) (f : Frame) : Option (List Text) :=
  let first :=
    match m.lines f.file f.line.toNat with
    | some line => some (Utf8.lossy line)
    | none => f.source
  match first with
  | none => none
  | some first =>
    (linesFrom (m.lines f.file) (f.lastLine.toNat - f.line.toNat) (f.line.toNat + 1)).map (first :: ·)

/-- Whether the statement does nothing but raise; a statement that cannot be read is not known to. -/
def raises (m : Formatter) (f : Frame) : Bool :=
  match m.statement? f with
  | none => false
  | some lines => Code.raises (Text.dedent (lines.flatMap fun line => line ++ ['\n']))

end Formatter
end Traceback
