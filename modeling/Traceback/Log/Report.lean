import Traceback.Disk
import Traceback.Log
import Traceback.Looks

/-! # What is told of a report

* `Report.restating`: the events of making a report.
* `Report.notes`: the looks at source lines and the events of showing it, in order.
* `Report.showing`: the events of showing it when lines are read from files.
-/

namespace Traceback
set_option autoImplicit false

/-! ## Frames -/

/-- The part of a line that is marked as a whole, unless there is something to single out in it. -/
def Underline.unfocused? (line : Text) (start stop : Nat) : Option Text :=
  let start := max 1 start
  if stop ≤ start then none
  else
    let segment := line.slice (start - 1) (stop - 1)
    if ((Code.outline? segment).bind (focus segment)).isNone then some segment else none

namespace Formatter

/-- The events of computing the underline of a frame. -/
def underlineEvents (f : Frame) (raw : Bytes) (line : Text) : List Event :=
  match f.column, f.endColumn with
  | some column, some endColumn =>
    if f.isMultiline then []
    else
      (Underline.unfocused? line (charOffset raw column.toNat + 1) (charOffset raw endColumn.toNat + 1)).toList.map
        .unfocused
  | _, _ => []

/-- The event of leaving the underline out. -/
def omission? (f : Frame) (shown : Text) (u : Underline) : Option Event :=
  if u.isEmpty then some (.emptyUnderline f.file f.line)
  else if shown.length < u.width then some (.wideUnderline f.file f.line)
  else none

/-- The events of showing the source line of a frame. -/
def blockEvents (m : Formatter) (f : Frame) : List Event :=
  match m.rawLine f with
  | none => []
  | some raw =>
    let line := Utf8.lossy raw
    let shown := line.trim
    if shown.isEmpty then []
    else underlineEvents f raw line ++ ((underline? f raw line).bind (omission? f shown)).toList

/-- The event of choosing the frames to show. -/
def stackEvents (m : Formatter) (stack : List Frame) : List Event :=
  match m.settings.boundary with
  | none => []
  | some boundary =>
    match after? (m.liesIn boundary) (m.withoutRaises stack), m.settings.missing with
    | none, .hideAll => [.boundaryMissing (m.resolve boundary)]
    | _, _ => []

end Formatter

/-! ## Reports -/

/-- A look at a source line, or something to tell. -/
inductive Note where
  | look (l : Look)
  | event (e : Event)

/-- The errors at the end of a link, each before those that it is linked to. -/
def Link.errors {α : Type} : Link α → List α
  | absent => []
  | back error _ cause context => error :: (errors cause ++ errors context)

def Restated.event (r : Restated) : Event :=
  match r.rule with
  | none => .unmatched r.category.name
  | some rule => .restated rule r.category.name

namespace Report

def restating (r : Report) : List Event := r.link.errors.map Restated.event

def notes (m : Formatter) (limit : Nat) (r : Report) : List Note :=
  r.history.flatMap fun (error, _) =>
    (m.stackLooks error.frames).map .look ++ (m.stackEvents error.frames).map .event ++
      (innermost limit (m.shown error.frames)).flatMap fun f =>
        (Formatter.blockLooks f).map .look ++ (m.blockEvents f).map .event

end Report

/-! ## Files -/

/-- What a look at line `n` of a file has to tell: a file is read once, at the first look at it. -/
def LineCache.unavailable (c : LineCache) (d : Disk) (file : Text) (n : Nat) : List Event :=
  if Disk.worthLooking file n && (c.files.lookup file).isNone then
    match d.read file with
    | .error f => [.unavailable file f.message]
    | .ok _ => []
  else []

/-- The events of these notes, and those of the looks among them. -/
def LineCache.events (c : LineCache) (d : Disk) : List Note → List Event
  | [] => []
  | .event e :: rest => e :: events c d rest
  | .look (file, n) :: rest => c.unavailable d file n ++ events (c.look d file n) d rest

/-- A program reads all files anew. -/
def Report.showing (d : Disk) (m : Formatter) (limit : Nat) (r : Report) : List Event :=
  LineCache.events {} d (r.notes m limit)

end Traceback
