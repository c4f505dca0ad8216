import Traceback.Proofs.Exception.Lineage
import Traceback.Proofs.Formatter.Alignment
import Traceback.Proofs.Formatter.Statement
import Traceback.Proofs.Source
import Traceback.Proofs.Text.Offset

/-! # Captured lines

A frame may carry its line as it was captured when the error was raised. It stands in for the line where the source has
none, and is of no consequence where it has one.

* `Formatter.format_of_line`, `Formatter.format_of_blank`, `Formatter.raises_of_single`: what is shown is the line that
  the source has, or else the captured one.
* `Formatter.format_of_found`, `Formatter.raises_of_found`: another captured line where the source has the line.
* `Formatter.format_over`, `Formatter.raises_over`: the captured line in the source instead.
* `Sources.exists_line`: a file that has a given line.
* `Report.trace_withoutSpare`: a trace without the captured lines that are of no consequence.
* `Report.captured_stands_in`: all of this for a frame and for reports.
-/

namespace Traceback
set_option autoImplicit false

/-! ## Frames -/

namespace Formatter

variable {m m' : Formatter} {f f' : Frame}

theorem rawLine_eq : m.rawLine f = (m.lines f.file f.line.toNat).or (f.source.map Utf8.encode) := by
  rw [rawLine]
  cases m.lines f.file f.line.toNat <;> rfl

/-- The line stands behind the location, unless it is blank. -/
theorem format_of_line {raw : Bytes} (hraw : m.rawLine f = some raw) (hshown : (Utf8.lossy raw).trim ≠ []) :
    m.location f ++ '\n' :: '\n' :: Text.indent (List.replicate m.settings.indent ' ') (Utf8.lossy raw).trim <+:
      m.format f := by
  have hblock : Text.indent (List.replicate m.settings.indent ' ') (Utf8.lossy raw).trim <+: m.codeBlock f := by
    rw [codeBlock_eq hraw hshown]
    cases shownMarkers f raw with
    | none => exact List.prefix_refl _
    | some markers =>
      dsimp only
      rw [Text.indent_append_cons]
      exact List.prefix_append ..
  have hne : m.codeBlock f ≠ [] := fun h =>
    Text.indent_ne_nil _ (Text.all_isBlank_trim _ hshown) (List.prefix_nil.mp (h ▸ hblock))
  have hcode : m.format f = m.location f ++ '\n' :: '\n' :: m.codeBlock f := by simp [format, hne]
  rw [hcode, List.prefix_append_right_inj, List.cons_prefix_cons, List.cons_prefix_cons]
  exact ⟨rfl, rfl, hblock⟩

theorem format_of_blank (h : ∀ raw, m.rawLine f = some raw → (Utf8.lossy raw).trim = []) : m.format f = m.location f := by
  have hblock : m.codeBlock f = [] := by
    cases hraw : m.rawLine f with
    | none => rw [codeBlock, hraw]
    | some raw => exact codeBlock_of_blank hraw (h raw hraw)
  rw [format, hblock]
  rfl

theorem raises_of_single (hsingle : f.isMultiline = false) : m.raises f =
    (((m.lines f.file f.line.toNat).map Utf8.lossy).or f.source).elim false fun text =>
      Code.raises (Text.dedent (text ++ ['\n'])) := by
  have hlast : f.lastLine = f.line := by simpa [Frame.isMultiline] using hsingle
  rw [raises, statement?_eq_bind, textAt_line, hlast, Nat.sub_self]
  cases ((m.lines f.file f.line.toNat).map Utf8.lossy).or f.source with
  | none => rfl
  | some text => simp [linesFrom]

/-- The lines of a source have no part in a frame's text but for the frame's own one. -/
theorem format_of_rawLine (hm : m' = { m with lines := m'.lines }) (hf : f' = { f with source := f'.source })
    (hraw : m'.rawLine f' = m.rawLine f) : m'.format f' = m.format f := by
  have hlocation : m'.location f' = m.location f := by
    have hfield : m'.field f' = m.field f := by
      funext field
      rw [hm, hf]
      cases field <;> rfl
    rw [location, location, hfield, hm]
  have hunderline (raw : Bytes) (line : Text) : underline? f' raw line = underline? f raw line := by
    rw [hf]
    rfl
  have hsettings : m'.settings = m.settings := by rw [hm]
  have hcode : m'.codeBlock f' = m.codeBlock f := by
    simp only [codeBlock, hraw, hunderline, hsettings]
  rw [format, format, hlocation, hcode]

theorem format_of_found (h : (m.lines f.file f.line.toNat).isSome = true) (source : Option Text) :
    m.format { f with source := source } = m.format f := by
  obtain ⟨line, hline⟩ := Option.isSome_iff_exists.mp h
  refine format_of_rawLine rfl rfl ?_
  rw [rawLine, rawLine, hline]

theorem raises_of_found (h : (m.lines f.file f.line.toNat).isSome = true) (source : Option Text) :
    m.raises { f with source := source } = m.raises f := by
  obtain ⟨line, hline⟩ := Option.isSome_iff_exists.mp h
  have hstatement : m.statement? { f with source := source } = m.statement? f := by
    rw [statement?, statement?, hline]
    rfl
  rw [raises, raises, hstatement]

section Over
variable {s : Sources} {text : Text} (hsource : f.source = some text)
  (hmissing : m.lines f.file f.line.toNat = none) (hline : s.line f.file f.line.toNat = some (Utf8.encode text))
include hsource hmissing hline

theorem format_over : (m.over s).format f = m.format f := by
  have hfound : (m.over s).lines f.file f.line.toNat = some (Utf8.encode text) := hline
  refine format_of_rawLine rfl rfl ?_
  rw [rawLine, rawLine, hfound, hmissing, hsource]
  rfl

theorem raises_over (hsingle : f.isMultiline = false) : (m.over s).raises f = m.raises f := by
  have hlast : f.lastLine = f.line := by simpa [Frame.isMultiline] using hsingle
  have htext : (m.over s).textAt f f.line.toNat = m.textAt f f.line.toNat := by
    rw [textAt_line, textAt_line, hmissing, hsource]
    show ((s.line f.file f.line.toNat).map Utf8.lossy).or _ = _
    rw [hline, Option.map_some, Utf8.lossy_encode]
    rfl
  have hstatement : (m.over s).statement? f = m.statement? f := by
    rw [statement?_eq_bind, statement?_eq_bind, htext, hlast, Nat.sub_self]
    rfl
  rw [raises, raises, hstatement]

end Over
end Formatter

/-! ## A source with a given line -/

theorem lineFeed_notMem_encode {text : Text} (h : '\n' ∉ text) : lineFeed ∉ Utf8.encode text := by
  intro hmem
  obtain ⟨c, hc, hb⟩ := List.mem_flatMap.mp hmem
  have hchar : c = '\n' := Char.toNat_inj.mp (Utf8.toNat_of_mem_encodeChar hb (by decide))
  exact h (hchar ▸ hc)

theorem getLast?_encode_ne {text : Text} (h : text.getLast? ≠ some '\r') :
    (Utf8.encode text).getLast? ≠ some carriageReturn := by
  intro hlast
  rcases List.eq_nil_or_concat text with rfl | ⟨init, c, rfl⟩
  · cases hlast
  · rw [List.concat_eq_append, Utf8.encode_append,
      List.getLast?_append_of_ne_nil _ (Utf8.encode_ne_nil (List.cons_ne_nil c []))] at hlast
    have hb : carriageReturn ∈ Utf8.encodeChar c := by simpa [Utf8.encode] using List.mem_of_getLast? hlast
    have hchar : c = '\r' := Char.toNat_inj.mp (Utf8.toNat_of_mem_encodeChar hb (by decide))
    exact h (by rw [List.concat_eq_append, List.getLast?_concat, hchar])

/-- The line before which there are only empty ones. -/
theorem Sources.exists_line (name : Text) (l : SourceLine) {n : Nat} (hn : 1 ≤ n) :
    ∃ content, ∀ s : Sources, (s.insert name content).line name n = some l.bytes := by
  obtain ⟨k, rfl⟩ := Nat.exists_eq_succ_of_ne_zero (Nat.ne_of_gt hn)
  refine ⟨joinLines (List.replicate k ({ bytes := [] }, .feed) ++ [(l, .feed)]), fun s => ?_⟩
  rw [line_insert, splitLines_joinLines]
  simp [lineAt]

/-! ## Stacks -/

namespace Formatter

variable {m : Formatter} {f : Frame}

/-- The frame without its captured line where the source has the line. -/
def withoutSpare (m : Formatter) (f : Frame) : Frame :=
  if (m.lines f.file f.line.toNat).isSome then { f with source := none } else f

theorem withoutSpare_of_found (h : (m.lines f.file f.line.toNat).isSome = true) (source : Option Text) :
    m.withoutSpare { f with source := source } = m.withoutSpare f := by
  rw [withoutSpare, withoutSpare, if_pos h]
  exact (if_pos h).symm

theorem format_withoutSpare (m : Formatter) (f : Frame) : m.format (m.withoutSpare f) = m.format f := by
  unfold withoutSpare
  split
  next h => exact format_of_found h none
  next => rfl

theorem raises_withoutSpare (m : Formatter) (f : Frame) : m.raises (m.withoutSpare f) = m.raises f := by
  unfold withoutSpare
  split
  next h => exact raises_of_found h none
  next => rfl

theorem file_withoutSpare (m : Formatter) (f : Frame) : (m.withoutSpare f).file = f.file := by
  unfold withoutSpare
  split <;> rfl

theorem after?_map {α β : Type} (g : α → β) (p : β → Bool) (l : List α) :
    after? p (l.map g) = (after? (fun a => p (g a)) l).map (List.map g) := by
  induction l with
  | nil => rfl
  | cons a l ih =>
    rw [List.map_cons, after?, after?, ih]
    split <;> rfl

theorem withoutRaises_map (stack : List Frame) :
    m.withoutRaises (stack.map m.withoutSpare) = (m.withoutRaises stack).map m.withoutSpare := by
  unfold withoutRaises
  split
  · rw [List.filter_map]
    simp only [Function.comp_def, raises_withoutSpare]
  · rfl

theorem afterBoundary_map (boundary : Text) (stack : List Frame) :
    m.afterBoundary boundary (stack.map m.withoutSpare) = (m.afterBoundary boundary stack).map m.withoutSpare := by
  have hlies : (fun f => m.liesIn boundary (m.withoutSpare f)) = m.liesIn boundary := by
    funext f
    rw [liesIn, liesIn, file_withoutSpare]
  rw [afterBoundary, afterBoundary, after?_map, hlies]
  cases after? (m.liesIn boundary) stack with
  | some inner => rfl
  | none => cases m.settings.missing <;> rfl

theorem shown_map (stack : List Frame) : m.shown (stack.map m.withoutSpare) = (m.shown stack).map m.withoutSpare := by
  rw [shown, shown]
  split
  · exact withoutRaises_map stack
  · rw [withoutRaises_map, afterBoundary_map]

end Formatter

/-! ## Reports -/

def Restated.withoutSpare (m : Formatter) (r : Restated) : Restated :=
  { r with frames := r.frames.map m.withoutSpare }

theorem Restated.frameTexts_withoutSpare (m : Formatter) (limit : Nat) (r : Restated) :
    (r.withoutSpare m).frameTexts m limit = r.frameTexts m limit := by
  have hinnermost (stack : List Frame) :
      innermost limit (stack.map m.withoutSpare) = (innermost limit stack).map m.withoutSpare := by
    unfold innermost
    split
    · rfl
    · rw [List.length_map, List.map_drop]
  rw [frameTexts, frameTexts, withoutSpare, Formatter.shown_map, hinnermost, List.map_map]
  exact List.map_congr_left fun f _ => Formatter.format_withoutSpare m f

namespace Report

theorem trace_withoutSpare (m : Formatter) (limit : Nat) (r : Report) :
    trace m limit (r.map (Restated.withoutSpare m)) = r.trace m limit := by
  have hpassage : (fun e => passage m limit (Restated.withoutSpare m e)) = passage m limit := by
    funext e earlier
    unfold passage
    rw [Restated.frameTexts_withoutSpare]
    rfl
  rw [trace, trace, Linked.recount_map, hpassage]

/-- **A captured line stands in for a missing line and for nothing else.** What is shown behind a frame's location, and
what its statement is when it has one line, is the line that the source has, or else the captured one. Where the source
has the frame's line, another captured line or none makes no difference to how the frame is shown and to whether it is
known to raise. Where the source does not know the file, a frame of one line is shown, and known to raise, as if the file were there with its
captured line in the right place; and there is such a file. So reports that differ at most in captured lines that the
source has have the same trace. -/
theorem captured_stands_in (m : Formatter) (f : Frame) :
    ((∀ raw, (m.lines f.file f.line.toNat).or (f.source.map Utf8.encode) = some raw → (Utf8.lossy raw).trim ≠ [] →
        m.location f ++ '\n' :: '\n' :: Text.indent (List.replicate m.settings.indent ' ') (Utf8.lossy raw).trim <+:
          m.format f) ∧
      ((∀ raw, (m.lines f.file f.line.toNat).or (f.source.map Utf8.encode) = some raw → (Utf8.lossy raw).trim = []) →
        m.format f = m.location f) ∧
      (f.isMultiline = false → m.raises f =
        (((m.lines f.file f.line.toNat).map Utf8.lossy).or f.source).elim false fun text =>
          Code.raises (Text.dedent (text ++ ['\n'])))) ∧
    ((m.lines f.file f.line.toNat).isSome = true → ∀ source,
      m.format { f with source := source } = m.format f ∧ m.raises { f with source := source } = m.raises f ∧
        m.withoutSpare { f with source := source } = m.withoutSpare f) ∧
    (∀ text, f.isMultiline = false → 1 ≤ f.line.toNat → f.source = some text → '\n' ∉ text →
      text.getLast? ≠ some '\r' → (∀ n, m.lines f.file n = none) →
      (∃ content, ∀ s : Sources, (s.insert f.file content).line f.file f.line.toNat = some (Utf8.encode text)) ∧
      ∀ s : Sources, s.line f.file f.line.toNat = some (Utf8.encode text) →
        (m.over s).format f = m.format f ∧ (m.over s).raises f = m.raises f) ∧
    ∀ limit (r r' : Report), r.map (Restated.withoutSpare m) = r'.map (Restated.withoutSpare m) →
      r.trace m limit = r'.trace m limit := by
  refine ⟨⟨fun raw hraw => Formatter.format_of_line (Formatter.rawLine_eq.trans hraw), fun h => ?_,
    Formatter.raises_of_single⟩, fun hfound source => ?_,
    fun text hsingle hn hsource hfeed hreturn hmissing => ⟨?_, fun s hline => ?_⟩, fun limit r r' hsame => ?_⟩
  · exact Formatter.format_of_blank fun raw hraw => h raw (Formatter.rawLine_eq.symm.trans hraw)
  · exact ⟨Formatter.format_of_found hfound source, Formatter.raises_of_found hfound source,
      Formatter.withoutSpare_of_found hfound source⟩
  · exact Sources.exists_line f.file ⟨Utf8.encode text, lineFeed_notMem_encode hfeed, getLast?_encode_ne hreturn⟩ hn
  · exact ⟨Formatter.format_over hsource (hmissing _) hline, Formatter.raises_over hsource (hmissing _) hline hsingle⟩
  · rw [← trace_withoutSpare, hsame, trace_withoutSpare]

def stdinFrame : Frame where
  file := "<stdin>".toList
  line := 2
  column := some 4
  endColumn := some 9
  scope := "<module>".toList
  source := some "y = x / 0".toList

def divisionIn (f : Frame) : Restated where
  category := ⟨"ZeroDivisionError".toList, []⟩
  received := []
  rule := none
  groups := .ofPairs []
  message := []
  frames := [f]

/-- An error and its cause in the same frame. -/
def twiceIn (f : Frame) : Report where
  error := divisionIn f
  cause := .back (divisionIn f) false .absent .absent

theorem captured_stands_in_stdin :
    let m := Formatter.ofSource ["x = 1", "y = x / 0"]
    let empty := Formatter.ofSource []
    ((m.lines stdinFrame.file stdinFrame.line.toNat).isSome = true ∧
      m.format { stdinFrame with source := none } = m.format stdinFrame) ∧
    ((∀ n, empty.lines stdinFrame.file n = none) ∧ stdinFrame.isMultiline = false ∧
      (∃ s : Sources, (empty.over s).format stdinFrame = empty.format stdinFrame ∧
        (empty.over s).raises stdinFrame = empty.raises stdinFrame) ∧
      empty.location stdinFrame ++ "\n\n    y = x / 0".toList <+: empty.format stdinFrame) ∧
    (twiceIn stdinFrame).trace m 1 = (twiceIn { stdinFrame with source := none }).trace m 1 := by
  intro m empty
  have hfound : (m.lines stdinFrame.file stdinFrame.line.toNat).isSome = true := rfl
  have hmissing : ∀ n, empty.lines stdinFrame.file n = none
    | 0 => rfl
    | n + 1 => rfl
  obtain ⟨⟨content, hcontent⟩, hover⟩ := (captured_stands_in empty stdinFrame).2.2.1 "y = x / 0".toList rfl (by decide)
    rfl (by decide) (by decide) hmissing
  have hshown := (captured_stands_in empty stdinFrame).1.1 (Utf8.encode "y = x / 0".toList) rfl (by decide +kernel)
  exact ⟨⟨hfound, ((captured_stands_in m stdinFrame).2.1 hfound none).1⟩,
    ⟨hmissing, rfl, ⟨Sources.insert {} stdinFrame.file content, hover _ (hcontent {})⟩, hshown⟩,
    (captured_stands_in m stdinFrame).2.2.2 1 _ _ rfl⟩

end Report
end Traceback
