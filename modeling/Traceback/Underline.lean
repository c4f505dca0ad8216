import Traceback.Text.Offset
import Traceback.Code.Outline

/-! # Underlines

Two spans of characters beneath a line: the failing expression, and within it the part that failed, which
is the operator of an operation or the brackets of a subscript. Positions count from 1 at the first
character of the line that is not blank, and a span ends before its second position.

* `Underline.between`: two spans put in order.
* `Underline.ofLine`, `Underline.ofSegment`: the underline of a part of a line, without and with regard to
  what the part says; `Underline.ofSegmentBy` leaves open what tells that.
* `Underline.render`: the markers.
-/

namespace Traceback
set_option autoImplicit false

structure Underline where
  outerStart : Nat
  start : Nat
  stop : Nat
  outerStop : Nat
  primary : Char := '^'
  secondary : Char := '~'
  one_le_outerStart : 1 ≤ outerStart
  outerStart_le_start : outerStart ≤ start
  start_le_stop : start ≤ stop
  stop_le_outerStop : stop ≤ outerStop

namespace Underline

/-! ## Spans -/

/-- The number nearest to `n` that is at least `low` and, unless that is impossible, at most `high`. -/
def clamp (low high n : Nat) : Nat := max low (min n high)

/-- The spans `[start, stop)` and `[outerStart, outerStop)`, the first moved into the second. -/
def between (start stop outerStart outerStop : Nat) : Underline :=
  let left := max 1 outerStart
  let right := max left outerStop
  let first := clamp left right start
  { outerStart := left
    start := first
    stop := clamp first right stop
    outerStop := right
    one_le_outerStart := Nat.le_max_left ..
    outerStart_le_start := Nat.le_max_left ..
    start_le_stop := Nat.le_max_left ..
    stop_le_outerStop :=
      Nat.max_le.mpr ⟨Nat.max_le.mpr ⟨Nat.le_max_left .., Nat.min_le_right ..⟩, Nat.min_le_right ..⟩ }

/-- A failing expression that is marked as a whole. -/
def plain (start stop : Nat) : Underline := between start stop start stop

def withMarkers (u : Underline) (primary secondary : Char) : Underline :=
  { u with primary := primary, secondary := secondary }

def width (u : Underline) : Nat := u.outerStop - 1

/-- Whether nothing is marked. -/
def isEmpty (u : Underline) : Bool := u.outerStart == u.outerStop

/-- The markers, the text that stands beneath the line without its leading blanks. -/
def render (u : Underline) : Text :=
  List.replicate (u.outerStart - 1) ' ' ++ List.replicate (u.start - u.outerStart) u.secondary ++
    List.replicate (u.stop - u.start) u.primary ++ List.replicate (u.outerStop - u.stop) u.secondary

/-! ## What failed -/

/-- Blanks and round brackets, which may stand between an operator and its operands. -/
def isFiller (c : Char) : Bool := Text.isBlank c || c == '(' || c == ')'

/-- The operator between two operands, as a span of characters counted from 0. -/
def operatorSpan (segment : Text) (left right : Nat) : Option (Nat × Nat) :=
  let gap := segment.slice left right
  let operator := Text.dropEndWhile isFiller (gap.dropWhile isFiller)
  let start := left + (gap.takeWhile isFiller).length
  if operator.isEmpty then none else some (start, start + operator.length)

/-- The part of an expression to single out, if any, as a span of characters counted from 0. -/
def focus (segment : Text) : Code.Outline → Option (Nat × Nat)
  | .operation left right => operatorSpan segment left right
  | .subscript base stop => some (base, stop)
  | .other => none

/-! ## Underlines of a line -/

/-- The part `[start, stop)` of `line`, counted from 1 at the first character of the line. -/
def ofLine (line : Text) (start stop : Nat) : Underline :=
  let margin := line.leadingBlanks
  plain (start - margin) (stop - margin)

/-- The same, with the span `inner` singled out, which is counted from 0 within the part. -/
def narrowed (line : Text) (start stop : Nat) (inner : Option (Nat × Nat)) : Underline :=
  let margin := line.leadingBlanks
  let (first, after) :=
    match inner with
    | some (first, after) => (start + first, start + after)
    | none => (start, stop)
  between (first - margin) (after - margin) (start - margin) (stop - margin)

/-- The part `[start, stop)` of `line` with what failed in it singled out, where `read` tells what a text says. -/
def ofSegmentBy (read : Text → Option Code.Outline) (line : Text) (start stop : Nat) : Underline :=
  let start := max 1 start
  if stop ≤ start then ofLine line start stop
  else
    let segment := line.slice (start - 1) (stop - 1)
    narrowed line start stop ((read segment).bind (focus segment))

def ofSegment (line : Text) (start stop : Nat) : Underline := ofSegmentBy Code.outline? line start stop

end Underline
end Traceback
