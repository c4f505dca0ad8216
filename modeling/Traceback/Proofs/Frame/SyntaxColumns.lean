import Mathlib.Algebra.Group.Nat.Defs
import Traceback.Formatter
import Traceback.Proofs.Text.Offset
import Traceback.Proofs.Text.Trim

/-! # Columns of faulty source code

Errors about source code count characters from 1, frames count bytes from 0. The way from one to the other is taken when
the frame is made, and back when its line is underlined.

* `SyntaxLocation.toNat_column`: the column of an offset, and `SyntaxLocation.toNat_stop` the offset behind the part.
* `Frame.syntaxColumns_ordered`: when the columns of such a frame are in order.
* `Frame.syntaxColumns_not_always_ordered`: behind the last offset of 64 bits comes the offset 0.
* `Formatter.syntaxSpan_kept`: what is underlined are the characters between the offsets.
-/

namespace Traceback
set_option autoImplicit false

namespace SyntaxLocation

variable {l : SyntaxLocation}

/-! ## Columns as numbers -/

theorem toNat_sub_one {offset : UInt64} : (if offset = 0 then 0 else offset - 1).toNat = offset.toNat - 1 := by
  split
  next h => rw [h]; rfl
  next h =>
    have hle : (1 : UInt64) ≤ offset := by
      rw [UInt64.le_iff_toNat_le]
      have hne : offset.toNat ≠ 0 := fun hzero => h (UInt64.toNat_inj.mp hzero)
      show 1 ≤ offset.toNat
      omega
    rw [UInt64.toNat_sub_of_le _ _ hle]
    rfl

theorem toNat_column_of_none (htext : l.lineText = none) (offset : UInt64) :
    (l.column offset).toNat = offset.toNat - 1 := by
  unfold column
  rw [htext]
  exact toNat_sub_one

theorem toNat_column_of_some {text : Text} (htext : l.lineText = some text)
    (hsize : (Utf8.encode text).length < 2 ^ 64) (offset : UInt64) :
    (l.column offset).toNat = byteOffset text (offset.toNat - 1) := by
  unfold column
  rw [htext]
  dsimp only
  rw [toNat_sub_one, UInt64.toNat_ofNat']
  exact Nat.mod_eq_of_lt (Nat.lt_of_le_of_lt (byteOffset_le text _) hsize)

/-- The text without its line end is no longer than it was. -/
theorem length_lineText {text : Text} (hsize : ∀ t ∈ l.text, (Utf8.encode t).length < 2 ^ 64)
    (htext : l.lineText = some text) : (Utf8.encode text).length < 2 ^ 64 := by
  obtain ⟨whole, hwhole, rfl⟩ := Option.map_eq_some_iff.mp htext
  have hbegins : Text.dropEndWhile isLineEnd whole <+: whole := by
    rw [Text.dropEndWhile_eq_rdropWhile]
    exact List.rdropWhile_prefix ..
  exact Nat.lt_of_le_of_lt (Utf8.length_encode_of_prefix hbegins) (hsize whole hwhole)

/-- The offset behind the part: the recorded one when it is greater, and the next one otherwise. -/
def stopOffset (l : SyntaxLocation) (start : UInt64) : Nat :=
  match l.endOffset with
  | some stop => if start < stop then stop.toNat else start.toNat + 1
  | none => start.toNat + 1

theorem toNat_succ {start : UInt64} (h : start.toNat + 1 < 2 ^ 64) : (start + 1).toNat = start.toNat + 1 := by
  rw [UInt64.toNat_add]
  exact Nat.mod_eq_of_lt h

theorem toNat_stop {start : UInt64} (h : start.toNat + 1 < 2 ^ 64) : (l.stop start).toNat = l.stopOffset start := by
  unfold stop stopOffset
  cases l.endOffset with
  | none => exact toNat_succ h
  | some stop =>
    dsimp only
    split
    next => rfl
    next => exact toNat_succ h

theorem lt_stopOffset (l : SyntaxLocation) (start : UInt64) : start.toNat < l.stopOffset start := by
  unfold stopOffset
  cases l.endOffset with
  | none => exact Nat.lt_succ_self _
  | some stop =>
    dsimp only
    split
    next h => exact UInt64.lt_iff_toNat_lt.mp h
    next => exact Nat.lt_succ_self _

/-- No offset is greater than the last one, and the next one is taken to be 0. -/
theorem stop_of_last {start : UInt64} (h : start.toNat + 1 = 2 ^ 64) : l.stop start = 0 := by
  have hzero : start + 1 = 0 := by
    apply UInt64.toNat_inj.mp
    rw [UInt64.toNat_add]
    show (start.toNat + 1) % 2 ^ 64 = 0
    rw [h, Nat.mod_self]
  unfold stop
  cases l.endOffset with
  | none => exact hzero
  | some stop =>
    have hle : ¬ start < stop := by
      have hstop := stop.toNat_lt
      rw [UInt64.lt_iff_toNat_lt]
      omega
    dsimp only
    rw [if_neg hle, hzero]

theorem start?_eq_some_iff {start : UInt64} : l.start? = some start ↔ l.offset = some start ∧ start ≠ 0 := by
  rw [start?, Option.filter_eq_some_iff, decide_eq_true_iff, UInt64.pos_iff_ne_zero]

end SyntaxLocation

namespace Frame

variable {l : SyntaxLocation} {start : UInt64}

theorem column_of_location (hstart : l.offset = some start) (hpos : start ≠ 0) :
    (ofSyntaxLocation l).column = some (l.column start) ∧
      (ofSyntaxLocation l).endColumn = some (l.column (l.stop start)) := by
  have h := SyntaxLocation.start?_eq_some_iff.mpr ⟨hstart, hpos⟩
  simp only [ofSyntaxLocation, h, Option.map_some, and_self]

/-! ## The order of the columns -/

/-- The part is empty where it begins behind the end of the text. -/
theorem column_lt_iff (hsize : ∀ t ∈ l.text, (Utf8.encode t).length < 2 ^ 64) (hpos : start ≠ 0)
    (hstart : start.toNat + 1 < 2 ^ 64) :
    l.column start ≤ l.column (l.stop start) ∧
      (l.column start < l.column (l.stop start) ↔ ∀ t ∈ l.lineText, start.toNat ≤ t.length) := by
  have hone : start.toNat ≠ 0 := fun hzero => hpos (UInt64.toNat_inj.mp hzero)
  have hlt := l.lt_stopOffset start
  rw [UInt64.le_iff_toNat_le, UInt64.lt_iff_toNat_lt]
  cases htext : l.lineText with
  | none =>
    rw [SyntaxLocation.toNat_column_of_none htext, SyntaxLocation.toNat_column_of_none htext,
      SyntaxLocation.toNat_stop hstart]
    exact ⟨by omega, iff_of_true (by omega) (by simp)⟩
  | some text =>
    have hbytes := SyntaxLocation.length_lineText hsize htext
    rw [SyntaxLocation.toNat_column_of_some htext hbytes, SyntaxLocation.toNat_column_of_some htext hbytes,
      SyntaxLocation.toNat_stop hstart]
    refine ⟨byteOffset_mono text (by omega), ?_⟩
    have hlength : (∀ t ∈ some text, start.toNat ≤ t.length) ↔ start.toNat ≤ text.length := by simp
    rw [byteOffset_lt_iff text (show start.toNat - 1 < l.stopOffset start - 1 by omega), hlength]
    omega

/-- From the last offset of all, the part ends at the first column. -/
theorem column_of_last (hsize : ∀ t ∈ l.text, (Utf8.encode t).length < 2 ^ 64) (hstart : start.toNat + 1 = 2 ^ 64) :
    l.column (l.stop start) = 0 ∧ (l.column start = 0 ↔ l.lineText = some []) := by
  rw [SyntaxLocation.stop_of_last hstart, ← UInt64.toNat_inj, ← UInt64.toNat_inj (b := 0)]
  cases htext : l.lineText with
  | none =>
    rw [SyntaxLocation.toNat_column_of_none htext, SyntaxLocation.toNat_column_of_none htext]
    refine ⟨rfl, iff_of_false (fun hzero => ?_) (by simp)⟩
    replace hzero : start.toNat - 1 = 0 := hzero
    omega
  | some text =>
    have hbytes := SyntaxLocation.length_lineText hsize htext
    rw [SyntaxLocation.toNat_column_of_some htext hbytes, SyntaxLocation.toNat_column_of_some htext hbytes]
    refine ⟨rfl, ?_⟩
    have hlt := byteOffset_lt_iff text (show 0 < start.toNat - 1 by omega)
    have hzero : byteOffset text 0 = 0 := rfl
    rw [hzero] at hlt
    show byteOffset text (start.toNat - 1) = 0 ↔ _
    rw [Option.some.injEq, ← List.length_eq_zero_iff]
    omega

/-- **The columns of faulty source code.** They are set together, when the offset denotes a character. They are in order
whenever there is an offset behind that character; from the last offset of all the end wraps around to column 0. -/
theorem syntaxColumns_ordered (l : SyntaxLocation) (hsize : ∀ t ∈ l.text, (Utf8.encode t).length < 2 ^ 64) :
    let f := ofSyntaxLocation l
    ((f.column.isSome = true ↔ ∃ start, l.offset = some start ∧ start ≠ 0) ∧
      f.endColumn.isSome = f.column.isSome) ∧
    ∀ start column endColumn, l.offset = some start → f.column = some column → f.endColumn = some endColumn →
      (start < l.stop start ↔ start.toNat + 1 < 2 ^ 64) ∧
      (column ≤ endColumn ↔ start.toNat + 1 < 2 ^ 64 ∨ l.lineText = some []) ∧
      (column < endColumn ↔ start.toNat + 1 < 2 ^ 64 ∧ ∀ t ∈ l.lineText, start.toNat ≤ t.length) := by
  intro f
  refine ⟨⟨?_, ?_⟩, fun start column endColumn hstart hcolumn hend => ?_⟩
  · rw [show f.column = l.start?.map l.column from rfl, Option.isSome_map, Option.isSome_iff_exists]
    simp only [SyntaxLocation.start?_eq_some_iff]
  · exact (Option.isSome_map ..).trans (Option.isSome_map ..).symm
  · have hpos : start ≠ 0 := by
      obtain ⟨start', hstart', -⟩ := Option.map_eq_some_iff.mp hcolumn
      obtain ⟨hoffset, hpos⟩ := SyntaxLocation.start?_eq_some_iff.mp hstart'
      rw [hstart] at hoffset
      cases hoffset
      exact hpos
    obtain ⟨hcolumn', hend'⟩ := column_of_location hstart hpos
    obtain rfl := Option.some.inj (hcolumn.symm.trans hcolumn')
    obtain rfl := Option.some.inj (hend.symm.trans hend')
    have hbound := start.toNat_lt
    by_cases hlast : start.toNat + 1 < 2 ^ 64
    · obtain ⟨hle, hlt⟩ := column_lt_iff hsize hpos hlast
      have hstop := l.lt_stopOffset start
      rw [← SyntaxLocation.toNat_stop hlast, ← UInt64.lt_iff_toNat_lt] at hstop
      exact ⟨iff_of_true hstop hlast, iff_of_true hle (Or.inl hlast), by rw [hlt, and_iff_right hlast]⟩
    · have heq : start.toNat + 1 = 2 ^ 64 := by omega
      obtain ⟨hzero, hempty⟩ := column_of_last hsize heq
      rw [hzero, SyntaxLocation.stop_of_last heq]
      refine ⟨iff_of_false UInt64.not_lt_zero hlast, ?_, iff_of_false UInt64.not_lt_zero fun h => hlast h.1⟩
      rw [or_iff_right hlast, ← hempty, UInt64.le_zero_iff]

/-- `é = = 1` at its second sign, and a place behind its end. -/
theorem syntaxColumns_ordered_doubleSign :
    let l : SyntaxLocation := { file := [], line := 1, offset := some 5, text := some "é = = 1\n".toList }
    let behind : SyntaxLocation := { l with offset := some 8, endOffset := some 9 }
    (∀ t ∈ l.text, (Utf8.encode t).length < 2 ^ 64) ∧
      ((ofSyntaxLocation l).column = some 5 ∧ (ofSyntaxLocation l).endColumn = some 6) ∧ (5 : UInt64) < 6 ∧
      ((ofSyntaxLocation behind).column = some 8 ∧ (ofSyntaxLocation behind).endColumn = some 8) ∧ ¬ (8 : UInt64) < 8 := by
  intro l behind
  have hsize : ∀ t ∈ l.text, (Utf8.encode t).length < 2 ^ 64 := by
    rintro t ⟨⟩
    decide
  have hcolumns : (ofSyntaxLocation l).column = some 5 ∧ (ofSyntaxLocation l).endColumn = some 6 := by decide
  have hbehind : (ofSyntaxLocation behind).column = some 8 ∧ (ofSyntaxLocation behind).endColumn = some 8 := by decide
  have hlt := ((syntaxColumns_ordered l hsize).2 5 5 6 rfl hcolumns.1 hcolumns.2).2.2
  have hlt' := ((syntaxColumns_ordered behind hsize).2 8 8 8 rfl hbehind.1 hbehind.2).2.2
  refine ⟨hsize, hcolumns, hlt.mpr ⟨by decide, ?_⟩, hbehind, fun h => ?_⟩
  · rintro t ⟨⟩
    decide
  · exact absurd ((hlt'.mp h).2 _ rfl) (by decide)

/-- The place of a single character at the last offset of all ends in front of its beginning. -/
theorem syntaxColumns_not_always_ordered : ¬ ∀ (l : SyntaxLocation) (column endColumn : UInt64),
    (ofSyntaxLocation l).column = some column → (ofSyntaxLocation l).endColumn = some endColumn →
      column ≤ endColumn := by
  intro h
  have hle := h { file := [], line := 1, offset := some 18446744073709551615 } 18446744073709551614 0 (by decide)
    (by decide)
  exact absurd hle (by decide)

end Frame

/-! ## What is underlined -/

namespace Formatter

theorem isMultiline_of_location {l : SyntaxLocation} (hend : ∀ n ∈ l.endLine, n ≤ l.line) :
    (Frame.ofSyntaxLocation l).isMultiline = false := by
  have hlast : (Frame.ofSyntaxLocation l).lastLine = l.line := by
    show max (l.endLine.getD l.line) l.line = l.line
    cases hline : l.endLine with
    | none => exact ite_self l.line
    | some n => exact if_pos (hend n hline)
  show ((Frame.ofSyntaxLocation l).lastLine != l.line) = false
  rw [hlast, bne_self_eq_false]

/-- **The characters between the offsets are underlined.** On the way to bytes and back no character is lost or gained,
whatever the line holds; offsets behind its end denote its end. -/
theorem syntaxSpan_kept (m : Formatter) (l : SyntaxLocation) (text : Text) (start : UInt64) (htext : l.text = some text)
    (hsize : (Utf8.encode text).length < 2 ^ 64) (hstart : l.offset = some start) (hpos : 0 < start)
    (hlast : start.toNat < 2 ^ 64 - 1) (hend : ∀ n ∈ l.endLine, n ≤ l.line)
    (hlines : m.lines l.file l.line.toNat = none ∨ m.lines l.file l.line.toNat = l.lineText.map Utf8.encode) :
    let f := Frame.ofSyntaxLocation l
    let line := Text.dropEndWhile SyntaxLocation.isLineEnd text
    let stop := l.stopOffset start
    let first := min (start.toNat - 1) line.length
    let after := min (stop - 1) line.length
    ∃ column endColumn raw, f.column = some column ∧ f.endColumn = some endColumn ∧ m.rawLine f = some raw ∧
      raw = Utf8.encode line ∧ Utf8.lossy raw = line ∧
      charOffset raw column.toNat = first ∧ charOffset raw endColumn.toNat = after ∧
      underline? f raw line = some (Underline.ofSegment line (first + 1) (after + 1)) ∧
      line.slice first after = line.slice (start.toNat - 1) (stop - 1) := by
  intro f line stop first after
  have hline : l.lineText = some line := by
    rw [SyntaxLocation.lineText, htext]
    rfl
  have hbytes := SyntaxLocation.length_lineText (l := l) (by rintro t ht; cases htext ▸ ht; exact hsize) hline
  obtain ⟨hcolumn, hendColumn⟩ := Frame.column_of_location hstart (UInt64.pos_iff_ne_zero.mp hpos)
  have hfirst : charOffset (Utf8.encode line) (l.column start).toNat = first := by
    rw [SyntaxLocation.toNat_column_of_some hline hbytes, charOffset_byteOffset]
  have hafter : charOffset (Utf8.encode line) (l.column (l.stop start)).toNat = after := by
    rw [SyntaxLocation.toNat_column_of_some hline hbytes, charOffset_byteOffset,
      SyntaxLocation.toNat_stop (by omega)]
  have hraw : m.rawLine f = some (Utf8.encode line) := by
    have hsource : f.source = some line := hline
    unfold rawLine
    rw [hsource]
    rcases hlines with hlines | hlines
    · rw [show m.lines f.file f.line.toNat = none from hlines]
      rfl
    · rw [show m.lines f.file f.line.toNat = some (Utf8.encode line) from hlines.trans (by rw [hline]; rfl)]
  refine ⟨_, _, _, hcolumn, hendColumn, hraw, rfl, Utf8.lossy_encode line, hfirst, hafter, ?_, ?_⟩
  · unfold underline?
    rw [hcolumn, hendColumn]
    dsimp only
    rw [isMultiline_of_location hend, hfirst, hafter]
    rfl
  · have htake : line.take after = line.take (stop - 1) := List.take_eq_take_iff.mpr (by omega)
    rw [Text.slice, Text.slice, htake]
    by_cases hle : start.toNat - 1 ≤ line.length
    · rw [show first = start.toNat - 1 from Nat.min_eq_left hle]
    · rw [List.drop_eq_nil_of_le (by rw [List.length_take]; omega),
        List.drop_eq_nil_of_le (by rw [List.length_take]; omega)]

/-- `名 = = 1` at its second sign, when no source has the line. -/
theorem syntaxSpan_kept_doubleSign :
    let m : Formatter := ⟨{}, fun _ _ => none, id, ['/']⟩
    let l : SyntaxLocation := { file := [], line := 1, offset := some 5, text := some "名 = = 1\r\n".toList }
    l.offset = some 5 ∧ l.text = some "名 = = 1\r\n".toList ∧ m.lines l.file l.line.toNat = none ∧
      underline? (Frame.ofSyntaxLocation l) (Utf8.encode "名 = = 1".toList) "名 = = 1".toList =
        some (Underline.ofSegment "名 = = 1".toList 5 6) := by
  intro m l
  obtain ⟨column, endColumn, raw, -, -, -, rfl, -, -, -, hunderline, -⟩ :=
    syntaxSpan_kept m l "名 = = 1\r\n".toList 5 rfl (by decide) rfl (by decide) (by decide) (by rintro n ⟨⟩) (.inl rfl)
  exact ⟨rfl, rfl, rfl, hunderline⟩

end Formatter
end Traceback
