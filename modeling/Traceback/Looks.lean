import Traceback.Report

/-! # Looks at source lines

Which lines are looked at when frames and reports are formatted, whether they exist or not.

* `Formatter.statementLooks`, `Formatter.blockLooks`: for a frame.
* `Formatter.stackLooks`: for choosing the frames to show.
* `Report.looks`: for the text of a report.
-/

namespace Traceback
set_option autoImplicit false

/-- A file and the number of a line in it. -/
abbrev Look := Text × Nat

namespace Formatter

/-- Looks at `count` lines from line `n` on; the first missing one is the last. -/
def looksFrom (m : Formatter) (file : Text) : (count n : Nat) → List Look
  | 0, _ => []
  | count + 1, n => (file, n) :: if (m.lines file n).isSome then looksFrom m file count (n + 1) else []

/-- To read the statement of a frame. -/
def statementLooks (m : Formatter) (f : Frame) : List Look :=
  let first := f.line.toNat
  (f.file, first) ::
    if (m.lines f.file first).isSome || f.source.isSome then
      m.looksFrom f.file (f.lastLine.toNat - first) (first + 1)
    else []

/-- To show the source line of a frame. -/
def blockLooks (f : Frame) : List Look := [(f.file, f.line.toNat)]

def stackLooks (m : Formatter) (stack : List Frame) : List Look :=
  if m.settings.hideRaises then stack.flatMap m.statementLooks else []

end Formatter

namespace Report

def looks (m : Formatter) (limit : Nat) (r : Report) : List Look :=
  r.history.flatMap fun (error, _) =>
    m.stackLooks error.frames ++ (innermost limit (m.shown error.frames)).flatMap Formatter.blockLooks

end Report
end Traceback
