import Traceback.Proofs.Report.Flattening
import Traceback.Report.Plain

/-! # Two layouts of one lineage

The interpreter's own layout and the trace go back from an exception on their own, the one along its links, the
other along those of its report. They show the same exceptions in the same order.

* `Frame.plain_eq`, `Raised.plain_eq`: the lines of a frame and of one exception.
* `Exception.plain_eq`: the interpreter's layout, one step back at a time.
* `Exception.plain_eq_flatMap`: the same in terms of the history.
* `Exception.layouts_agree`: both layouts in terms of the steps back from the exception.
-/

namespace Traceback
set_option autoImplicit false

/-! ## The interpreter's layout -/

theorem Frame.plain_eq (f : Frame) :
    f.plain =
      "  File \"".toList ++ f.file ++ "\", line ".toList ++ Text.ofNat f.line.toNat ++ ", in ".toList ++ f.scope ++ ['\n'] ++
        if (f.source.getD []).trim = [] then [] else "    ".toList ++ (f.source.getD []).trim ++ ['\n'] := by
  simp only [plain, List.isEmpty_iff]
  split
  · rw [List.append_nil]
  · simp only [List.append_assoc]

theorem Raised.plain_eq (r : Raised) :
    r.plain =
      (if r.frames = [] then [] else "Traceback (most recent call last):\n".toList ++ r.frames.flatMap Frame.plain) ++
        (if r.message = [] then r.typeName else r.typeName ++ ": ".toList ++ r.message) ++ ['\n'] := by
  obtain ⟨typeName, bases, message, frames, location⟩ := r
  cases frames with
  | nil => cases message <;> rfl
  | cons => cases message <;> rfl

namespace Exception

/-- The lines between an exception and the next, if there is one. -/
def plainTie (tie : Option Tie) : Text := tie.elim [] fun t => '\n' :: t.plainConnective ++ ['\n', '\n']

theorem plain_eq (e : Exception) :
    e.plain = (e.previous?.elim [] fun p => plain p.1 ++ plainTie (some p.2)) ++ e.error.plain := by
  rw [plain, Linked.recount_eq]
  cases e.previous? with
  | none => rfl
  | some p =>
    show plain p.1 ++ '\n' :: p.2.plainConnective ++ '\n' :: '\n' :: e.error.plain = _
    simp only [Option.elim_some, plainTie, List.append_assoc, List.cons_append, List.nil_append]

theorem flatMap_historyTo (e : Exception) (tie : Option Tie) :
    (e.link.historyTo tie).flatMap (fun p => p.1.plain ++ plainTie p.2) =
      (e.link.historyTo none).flatMap (fun p => p.1.plain ++ plainTie p.2) ++ plainTie tie := by
  rw [Linked.historyTo_eq, Linked.historyTo_eq, List.flatMap_append, List.flatMap_append, List.flatMap_singleton,
    List.flatMap_singleton]
  simp only [plainTie, Option.elim_none, List.append_nil, List.append_assoc]

theorem plain_eq_flatMap (e : Exception) : e.plain = e.history.flatMap fun p => p.1.plain ++ plainTie p.2 := by
  rw [Linked.history]
  induction e using Linked.induction_previous with
  | step e ih =>
    rw [plain_eq, Linked.historyTo_eq, List.flatMap_append, List.flatMap_singleton]
    cases hprevious : e.previous? with
    | none => exact (List.append_nil _).symm
    | some p =>
      -- the tie stands after the earlier exception in the history, and before the later one in the text
      have h := ih p.1 p.2 hprevious
      have hlast : e.error.plain ++ plainTie none = e.error.plain := List.append_nil _
      rw [Option.elim_some, Option.elim_some, flatMap_historyTo, ← h, hlast]

/-! ## Both layouts -/

/-- **Both layouts show the same exceptions.** The steps back from an exception give the blocks of the interpreter's
layout, oldest first, with what ties each to the next between them; a block has a line for the place of each frame and
one for its captured source line, unless that is blank or missing. The steps back from its report, and so the
paragraphs of its trace, are those of the same exceptions in the same order and with the same ties, whatever rules
restate them. -/
theorem layouts_agree (e : Exception) :
    e.plain =
      (e.lineage.flatMap fun ((c : Exception), tie) =>
        (if c.error.frames = [] then []
          else "Traceback (most recent call last):\n".toList ++ c.error.frames.flatMap fun f =>
            "  File \"".toList ++ f.file ++ "\", line ".toList ++ Text.ofNat f.line.toNat ++ ", in ".toList ++ f.scope ++
              ['\n'] ++
              if (f.source.getD []).trim = [] then [] else "    ".toList ++ (f.source.getD []).trim ++ ['\n']) ++
        (if c.error.message = [] then c.error.typeName else c.error.typeName ++ ": ".toList ++ c.error.message) ++
        ['\n'] ++ tie.elim [] fun t => '\n' :: t.plainConnective ++ ['\n', '\n']) ∧
    ∀ rules,
      Linked.lineage (Report.ofException rules e) =
        e.lineage.map (fun p => (Report.ofException rules p.1, p.2)) ∧
      ∀ m limit,
        (Report.ofException rules e).trace m limit =
          Report.paragraphs (e.lineage.flatMap fun ((c : Exception), tie) =>
            (Restated.ofRaised rules c.error).frameTexts m limit ++ [(Report.ofException rules c).summary] ++
              (tie.map Tie.connective).toList) := by
  refine ⟨?_, fun rules => ?_⟩
  · rw [plain_eq_flatMap, ← Linked.lineage_entries, List.flatMap_map]
    simp only [← Frame.plain_eq]
    refine List.flatMap_congr fun p _ => ?_
    exact congrArg (· ++ plainTie p.2) p.1.error.plain_eq
  · have hlineage : Linked.lineage (Report.ofException rules e) =
        e.lineage.map fun p => (Report.ofException rules p.1, p.2) := Linked.lineage_map _ e
    refine ⟨hlineage, fun m limit => ?_⟩
    rw [Report.trace_eq_paragraphs, ← Linked.lineage_entries, hlineage, List.map_map, List.flatMap_map]
    rfl

end Exception
end Traceback
