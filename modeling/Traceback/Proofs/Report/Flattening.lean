import Mathlib.Data.List.DropRight
import Traceback.Proofs.Exception.Lineage
import Traceback.Proofs.Text.Pieces
import Traceback.Report

/-! # The trace as one list of paragraphs

A trace is made by putting the text of an error after the text of the error before it. It is as if the
paragraphs of all errors on the way back were listed, oldest first, and joined once.

* `Report.paragraphs_cons_paragraphs`: paragraphs within paragraphs make no difference.
* `Report.trace_eq_paragraphs`: the trace in terms of the history.
* `Report.trace_flattened`: the trace in terms of the steps back, and without what is hidden.
-/

namespace Traceback
set_option autoImplicit false

/-! ## Paragraphs -/

theorem innermost_eq_rtake {α : Type} (limit : Nat) (l : List α) :
    innermost limit l = if limit = 0 then l else l.rtake (min limit l.length) := by
  have e : l.length - min limit l.length = l.length - limit := by omega
  rw [innermost, List.rtake, e]

namespace Report

theorem mem_filter_nonempty {parts : List Text} {p : Text} (h : p ∈ parts.filter fun p => !p.isEmpty) : p ≠ [] := by
  intro hp
  rw [List.mem_filter, hp] at h
  exact Bool.false_ne_true h.2

theorem paragraphs_cons_paragraphs (inner outer : List Text) :
    paragraphs (paragraphs inner :: outer) = paragraphs (inner ++ outer) := by
  unfold paragraphs
  rw [List.filter_append, List.filter_cons]
  by_cases h : inner.filter (fun p => !p.isEmpty) = []
  · rw [h]
    rfl
  · have hne := Text.joined_ne_nil ['\n', '\n'] h fun p hp => mem_filter_nonempty hp
    rw [if_pos (by simpa using hne), Text.joined_cons_joined _ h]

/-! ## The history of an error -/

/-- What the trace says of an error in the history: its frames, its summary and its tie to the next. -/
def statements (m : Formatter) (limit : Nat) (p : Restated × Option Tie) : List Text :=
  p.1.frameTexts m limit ++ [p.1.summary] ++ (p.2.map Tie.connective).toList

theorem statements_none (m : Formatter) (limit : Nat) (error : Restated) :
    statements m limit (error, none) = error.frameTexts m limit ++ [error.summary] := List.append_nil _

theorem statements_some (m : Formatter) (limit : Nat) (error : Restated) (tie : Tie) :
    statements m limit (error, some tie) = statements m limit (error, none) ++ [tie.connective] := by
  rw [statements_none]
  rfl

theorem trace_eq_passage (m : Formatter) (limit : Nat) (r : Report) :
    r.trace m limit =
      paragraphs ((r.previous?.elim [] fun p => [trace m limit p.1, p.2.connective]) ++
        statements m limit (r.error, none)) := by
  rw [trace, Linked.recount_eq, statements_none]
  cases r.previous? <;> rfl

theorem flatMap_historyTo (m : Formatter) (limit : Nat) (r : Report) (tie : Tie) :
    (r.link.historyTo (some tie)).flatMap (statements m limit) =
      (r.link.historyTo none).flatMap (statements m limit) ++ [tie.connective] := by
  rw [Linked.historyTo_eq, Linked.historyTo_eq, List.flatMap_append, List.flatMap_append, List.flatMap_singleton,
    List.flatMap_singleton, statements_some, List.append_assoc]

theorem trace_eq_paragraphs (m : Formatter) (limit : Nat) (r : Report) :
    r.trace m limit = paragraphs (r.history.flatMap (statements m limit)) := by
  rw [Linked.history]
  induction r using Linked.induction_previous with
  | step r ih =>
    rw [trace_eq_passage, Linked.historyTo_eq, List.flatMap_append, List.flatMap_singleton]
    cases hprevious : r.previous? with
    | none => rfl
    | some p =>
      -- the text of the earlier error is a joined list, followed by the tie that ends the earlier history
      have h := ih p.1 p.2 hprevious
      rw [Option.elim_some, Option.elim_some, h, List.cons_append, paragraphs_cons_paragraphs, flatMap_historyTo,
        List.append_assoc, List.singleton_append]

/-! ## The steps back -/

/-- **The trace is one list of paragraphs.** It is made of the errors met on the way back, oldest first: of
each the frames shown, its summary, and what ties it to the next one. What hidden links lead to is not
looked at. -/
theorem trace_flattened (m : Formatter) (limit : Nat) (r : Report) :
    r.trace m limit =
      Text.joined ['\n', '\n']
        ((r.lineage.flatMap fun ((c : Report), tie) =>
          let kept := m.shown c.error.frames
          (if limit = 0 then kept else kept.rtake (min limit kept.length)).map m.format ++ [c.summary] ++
            (tie.map Tie.connective).toList).filter fun part => !part.isEmpty) ∧
    trace m limit r.withoutHidden = r.trace m limit := by
  refine ⟨?_, Linked.recount_withoutHidden _ r⟩
  rw [trace_eq_paragraphs, ← Linked.lineage_entries, List.flatMap_map, paragraphs]
  congr 2
  apply List.flatMap_congr
  intro p _
  rw [statements, Restated.frameTexts, innermost_eq_rtake]
  rfl

end Report
end Traceback
