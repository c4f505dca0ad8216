import Traceback.Formatter
import Traceback.Proofs.Text.Trim
import Traceback.Proofs.Text.Units
import Traceback.Proofs.Underline

/-! # Underlines stand beneath what they mark

Columns count bytes of the line as it was executed, markers stand beneath the characters of its trimmed text.

* `Formatter.Underlined`: what the markers beneath a line must be, by the columns of the frame.
* `Formatter.underline?_spans`: the span of an underline, in characters.
* `Formatter.codeBlock_aligned`: the lines of a code block; a character of the second one marks the character
  above it exactly when that character begins within the columns.
-/

namespace Traceback.Formatter
set_option autoImplicit false

/-- The markers `second` beneath the trimmed text of `raw` are those of the columns of `f`. There are some when
a character of that text, and none behind it, begins between the columns, and they mark these characters; an
expression of several lines reaches to the end of the text. -/
def Underlined (f : Frame) (raw : Bytes) (second : Option Text) : Prop :=
  let begins := Utf8.starts raw
  let blanks := (Utf8.lossy raw).leadingBlanks
  let length := (Utf8.lossy raw).trim.length
  match f.column, f.endColumn with
  | some column, some endColumn =>
    let first := begins.countP (· < column.toNat)
    let stop := if f.isMultiline then blanks + length else begins.countP (· < endColumn.toNat)
    (second.isSome ↔ first < stop ∧ blanks < stop ∧ stop ≤ blanks + length) ∧
      ∀ markers ∈ second, Marks markers fun i => ∃ p, begins[blanks + i]? = some p ∧ column.toNat ≤ p ∧
        if f.isMultiline then i < length else p < endColumn.toNat
  | _, _ => second = none

/-! ## Spans -/

theorem underline?_spans (f : Frame) (raw : Bytes) {column endColumn : UInt64} (hcolumn : f.column = some column)
    (hend : f.endColumn = some endColumn) (hshown : (Utf8.lossy raw).trim ≠ []) :
    ∃ u, underline? f raw (Utf8.lossy raw) = some u ∧
      u.Spans (Utf8.lossy raw).leadingBlanks ((Utf8.starts raw).countP (· < column.toNat) + 1)
        ((if f.isMultiline then (Utf8.lossy raw).leadingBlanks + (Utf8.lossy raw).trim.length
          else (Utf8.starts raw).countP (· < endColumn.toNat)) + 1) := by
  unfold underline?
  rw [hcolumn, hend]
  dsimp only
  rw [charOffset_eq_countP, charOffset_eq_countP, Text.length_trimEnd _ hshown]
  split
  · exact ⟨_, rfl, Underline.ofLine_spans _ _ _⟩
  · exact ⟨_, rfl, Underline.ofSegment_spans _ _ _ (Nat.succ_pos _)⟩

/-- A character stands between two columns when it begins there. -/
theorem begins_iff (raw : Bytes) (column endColumn j : Nat) :
    (∃ p, (Utf8.starts raw)[j]? = some p ∧ column ≤ p ∧ p < endColumn) ↔
      (Utf8.starts raw).countP (· < column) ≤ j ∧ j < (Utf8.starts raw).countP (· < endColumn) := by
  constructor
  · rintro ⟨p, hp, hcolumn, hend⟩
    have h := Utf8.lt_countP_starts raw column hp
    exact ⟨by omega, (Utf8.lt_countP_starts raw endColumn hp).mpr hend⟩
  · rintro ⟨hle, hlt⟩
    have hlength : j < (Utf8.starts raw).length := Nat.lt_of_lt_of_le hlt List.countP_le_length
    have hp := List.getElem?_eq_getElem hlength
    have h := Utf8.lt_countP_starts raw column hp
    exact ⟨_, hp, by omega, (Utf8.lt_countP_starts raw endColumn hp).mp hlt⟩

/-! ## Markers -/

section Markers
variable {shown markers : Text} {u : Underline} {k s t : Nat}

theorem markers?_eq (shown : Text) (u : Underline) :
    markers? shown u =
      if u.outerStart < u.outerStop ∧ u.outerStop - 1 ≤ shown.length then some u.render else none := by
  have hle : u.outerStart ≤ u.outerStop :=
    Nat.le_trans u.outerStart_le_start (Nat.le_trans u.start_le_stop u.stop_le_outerStop)
  unfold markers? Underline.isEmpty Underline.width
  by_cases h : u.outerStart < u.outerStop ∧ u.outerStop - 1 ≤ shown.length
  · have hne : ¬ u.outerStart = u.outerStop := by omega
    have hfits : ¬ shown.length < u.outerStop - 1 := by omega
    simp [h, hne, hfits]
  · rw [if_neg h, if_pos]
    simp only [Bool.or_eq_true, beq_iff_eq, decide_eq_true_eq]
    omega

theorem markers?_isSome_iff (hu : u.Spans k (s + 1) (t + 1)) :
    (markers? shown u).isSome ↔ s < t ∧ k < t ∧ t ≤ k + shown.length := by
  have hstart := hu.outerStart_eq
  have hstop := hu.outerStop_eq
  rw [markers?_eq]
  split
  next h => exact iff_of_true rfl (by omega)
  next h => exact iff_of_false Bool.false_ne_true (by omega)

theorem marks_of_markers? (hu : u.Spans k (s + 1) (t + 1)) (h : markers? shown u = some markers) :
    Marks markers (fun i => s ≤ k + i ∧ k + i < t) ∧ '\n' ∉ markers ∧ markers.all Text.isBlank = false := by
  have hstart := hu.outerStart_eq
  have hstop := hu.outerStop_eq
  rw [markers?_eq] at h
  split at h
  next hspan =>
    cases h
    have hcolumns : (fun i => u.outerStart ≤ i + 1 ∧ i + 1 < u.outerStop) = fun i => s ≤ k + i ∧ k + i < t := by
      funext i
      rw [eq_iff_iff]
      omega
    rw [← hcolumns]
    exact ⟨Underline.marks_render hu.visible hspan.1, Underline.lineFeed_notMem_render hu.visible,
      Underline.all_isBlank_render hu.visible hspan.1⟩
  next => cases h

end Markers

/-! ## Code blocks -/

/-- The markers that a block shows, if any. -/
def shownMarkers (f : Frame) (raw : Bytes) : Option Text :=
  (underline? f raw (Utf8.lossy raw)).bind (markers? (Utf8.lossy raw).trim)

section Block
variable {m : Formatter} {f : Frame} {raw : Bytes}

theorem codeBlock_of_blank (hraw : m.rawLine f = some raw) (hshown : (Utf8.lossy raw).trim = []) :
    m.codeBlock f = [] := by
  unfold codeBlock
  rw [hraw]
  dsimp only
  rw [hshown]
  rfl

/-- The block of a line that is not blank: that line, and the markers beneath it if there are any. -/
theorem codeBlock_eq (hraw : m.rawLine f = some raw) (hshown : (Utf8.lossy raw).trim ≠ []) :
    m.codeBlock f = Text.indent (List.replicate m.settings.indent ' ')
      (match shownMarkers f raw with
        | some markers => (Utf8.lossy raw).trim ++ '\n' :: markers
        | none => (Utf8.lossy raw).trim) := by
  have hempty : ¬ (Utf8.lossy raw).trim.isEmpty = true := by simpa using hshown
  unfold codeBlock
  rw [hraw]
  dsimp only
  rw [if_neg hempty]
  rfl

theorem lineFeed_notMem_margin {n : Nat} {t : Text} (h : '\n' ∉ t) : '\n' ∉ List.replicate n ' ' ++ t := by
  rw [List.mem_append, not_or, List.mem_replicate]
  exact ⟨fun hmem => absurd hmem.2 (by decide), h⟩

/-- The lines of a block, when the markers can be told from line ends and blanks. -/
theorem cut_codeBlock (hraw : m.rawLine f = some raw) (hline : lineFeed ∉ raw)
    (hshown : (Utf8.lossy raw).trim ≠ [])
    (hmarkers : ∀ markers ∈ shownMarkers f raw,
      '\n' ∉ markers ∧ markers.all Text.isBlank = false) :
    Text.cut '\n' (m.codeBlock f) =
      (List.replicate m.settings.indent ' ' ++ (Utf8.lossy raw).trim) ::
        ((shownMarkers f raw).map (List.replicate m.settings.indent ' ' ++ ·)).toList := by
  have hfirst : '\n' ∉ (Utf8.lossy raw).trim := fun h =>
    Utf8.lineFeed_notMem_lossy hline (Text.mem_of_mem_trim h)
  have hvisible := Text.all_isBlank_trim _ hshown
  rw [codeBlock_eq hraw hshown]
  cases hsecond : shownMarkers f raw with
  | none =>
    dsimp only
    rw [Text.indent_line _ hfirst hvisible, Text.cut_of_notMem (lineFeed_notMem_margin hfirst)]
    rfl
  | some markers =>
    obtain ⟨hfeed, hblank⟩ := hmarkers markers hsecond
    dsimp only
    rw [Text.indent_lines _ hfirst hvisible hfeed hblank, Text.cut_append (lineFeed_notMem_margin hfirst),
      Text.cut_of_notMem (lineFeed_notMem_margin hfeed)]
    rfl

theorem ne_nil_of_cut {t line : Text} {rest : List Text} (h : Text.cut '\n' t = line :: rest) (hline : line ≠ []) :
    t ≠ [] := by
  rintro rfl
  cases h
  exact hline rfl

end Block

/-- The characters that a frame with columns has marked, counted from the first one shown. -/
theorem marked_iff (f : Frame) (raw : Bytes) (column endColumn i : Nat) :
    ((Utf8.starts raw).countP (· < column) ≤ (Utf8.lossy raw).leadingBlanks + i ∧
      (Utf8.lossy raw).leadingBlanks + i <
        if f.isMultiline then (Utf8.lossy raw).leadingBlanks + (Utf8.lossy raw).trim.length
        else (Utf8.starts raw).countP (· < endColumn)) ↔
    ∃ p, (Utf8.starts raw)[(Utf8.lossy raw).leadingBlanks + i]? = some p ∧ column ≤ p ∧
      if f.isMultiline then i < (Utf8.lossy raw).trim.length else p < endColumn := by
  cases f.isMultiline with
  | false => exact (begins_iff raw column endColumn _).symm
  | true =>
    have hlength := Text.leadingBlanks_add_length_trim_le (Utf8.lossy raw)
    rw [← Utf8.length_starts] at hlength
    simp only [if_true]
    constructor
    · rintro ⟨hle, hlt⟩
      have hp := List.getElem?_eq_getElem (show (Utf8.lossy raw).leadingBlanks + i < (Utf8.starts raw).length by omega)
      have h := Utf8.lt_countP_starts raw column hp
      exact ⟨_, hp, by omega, by omega⟩
    · rintro ⟨p, hp, hcolumn, hlt⟩
      have h := Utf8.lt_countP_starts raw column hp
      omega

theorem underlined_shownMarkers (f : Frame) (raw : Bytes) (hshown : (Utf8.lossy raw).trim ≠ []) :
    Underlined f raw (shownMarkers f raw) ∧
      ∀ markers ∈ shownMarkers f raw, '\n' ∉ markers ∧ markers.all Text.isBlank = false := by
  unfold Underlined
  dsimp only
  split
  next column endColumn hcolumn hend =>
    obtain ⟨u, hu, hspans⟩ := underline?_spans f raw hcolumn hend hshown
    have hsecond : shownMarkers f raw = markers? (Utf8.lossy raw).trim u := by
      rw [shownMarkers, hu, Option.bind_some]
    rw [hsecond]
    refine ⟨⟨markers?_isSome_iff hspans, fun markers hmarkers => ?_⟩, fun markers hmarkers => ?_⟩
    · have hcolumns := funext fun i => propext (marked_iff f raw column.toNat endColumn.toNat i)
      rw [← hcolumns]
      exact (marks_of_markers? hspans hmarkers).1
    · exact (marks_of_markers? hspans hmarkers).2
  next hnone =>
    have hu : underline? f raw (Utf8.lossy raw) = none := by
      unfold underline?
      split
      next column endColumn hcolumn hend => exact absurd hend (hnone column endColumn hcolumn)
      next => rfl
    rw [shownMarkers, hu]
    exact ⟨rfl, fun markers hmarkers => by cases hmarkers⟩

/-- **Underlines stand beneath what they mark.** A line that is not blank is shown without the blanks around
it, and beneath it what `Underlined` says; characters begin where the line can be cut before them. -/
theorem codeBlock_aligned (m : Formatter) (f : Frame) (raw : Bytes) (hraw : m.rawLine f = some raw)
    (hline : lineFeed ∉ raw) :
    let shown := (Utf8.lossy raw).trim
    let margin := List.replicate m.settings.indent ' '
    ((Utf8.starts raw).length = (Utf8.lossy raw).length ∧
        ∀ j p, (Utf8.starts raw)[j]? = some p →
          Utf8.lossy (raw.take p) = (Utf8.lossy raw).take j ∧ Utf8.lossy (raw.drop p) = (Utf8.lossy raw).drop j) ∧
      (m.codeBlock f = [] ↔ shown.length = 0) ∧
      (shown.length ≠ 0 → ∃ second : Option Text,
        Text.cut '\n' (m.codeBlock f) = (margin ++ shown) :: (second.map (margin ++ ·)).toList ∧
          Underlined f raw second) := by
  intro shown margin
  have hlines : shown.length ≠ 0 → ∃ second : Option Text,
      Text.cut '\n' (m.codeBlock f) = (margin ++ shown) :: (second.map (margin ++ ·)).toList ∧
        Underlined f raw second := by
    intro hlength
    have hshown : shown ≠ [] := fun h => hlength (by rw [h]; rfl)
    obtain ⟨hunderlined, hmarkers⟩ := underlined_shownMarkers f raw hshown
    exact ⟨shownMarkers f raw, cut_codeBlock hraw hline hshown hmarkers, hunderlined⟩
  refine ⟨⟨Utf8.length_starts raw, fun j p => Utf8.lossy_split raw⟩, ⟨fun h => ?_, fun h => ?_⟩, hlines⟩
  · by_contra hlength
    obtain ⟨second, hcut, -⟩ := hlines hlength
    refine ne_nil_of_cut hcut ?_ h
    exact List.append_ne_nil_of_right_ne_nil _ fun he => hlength (by rw [he]; rfl)
  · exact codeBlock_of_blank hraw (List.length_eq_zero_iff.mp h)

/-- A sum whose first operand has two bytes and whose second one is malformed, in an indented line. -/
theorem codeBlock_aligned_sum :
    let m : Formatter := ⟨{}, fun _ _ => some [0x20, 0x09, 0xC3, 0xA9, 0x2B, 0xFF], fun path => path, []⟩
    let f : Frame := { file := [], line := 1, column := some 2, endColumn := some 6, scope := [] }
    let raw : Bytes := [0x20, 0x09, 0xC3, 0xA9, 0x2B, 0xFF]
    m.rawLine f = some raw ∧ lineFeed ∉ raw ∧ ∃ second : Option Text,
      Text.cut '\n' (m.codeBlock f) =
          [' ', ' ', ' ', ' ', 'é', '+', '\uFFFD'] :: (second.map ([' ', ' ', ' ', ' '] ++ ·)).toList ∧
        Underlined f raw second := by
  intro m f raw
  have hline : lineFeed ∉ raw := by decide
  have hshown : (Utf8.lossy raw).trim = ['é', '+', '\uFFFD'] := by decide
  have h := (codeBlock_aligned m f raw rfl hline).2.2
  rw [hshown] at h
  exact ⟨rfl, hline, h (by decide)⟩

end Traceback.Formatter
