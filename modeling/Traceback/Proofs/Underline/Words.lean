import Mathlib.Algebra.Group.Nat.Defs
import Traceback.Proofs.Text.Offset
import Traceback.Proofs.Underline.Visible

/-! # Underlines in machine words

The positions of an underline are words of 64 bits, and so are all numbers on the way to them. Here the way is gone with
these numbers: a sum that is too large, a difference below zero, a part of a line that it does not have and bounds that
are out of order are faults, and the parser may report any places of bytes. To count characters is none, since a line in
memory has fewer than words can count.

* `Words.between`, `Words.ofLine`, `Words.ofSegment`, `Words.render`: underlines and their markers, or the first fault.
* `Words.between_eq`, `Words.ofLine_eq`, `Words.ofSegment_eq`, `Words.render_eq`: what they are without faults.
* `Words.WellFormed`: positions in order, with the markers that belong to them.
* `computed_in_words`: there are no faults.
-/

namespace Traceback
set_option autoImplicit false

/-! ## Parts of lines by bytes -/

theorem byteOffset_min (t : Text) (i : Nat) : byteOffset t (min i t.length) = byteOffset t i := by
  rw [byteOffset, byteOffset, ← List.take_eq_take_min]

namespace Text

/-- The character that begins at byte `b`; the length of the text where it ends. -/
def indexAt? (t : Text) (b : Nat) : Option Nat := (List.range (t.length + 1)).find? fun i => byteOffset t i == b

/-- The bytes `start` up to but excluding `stop`, when they are whole characters of the text. -/
def bytes? (t : Text) (start stop : Nat) : Option Text := do
  let i ← t.indexAt? start
  let j ← t.indexAt? stop
  if start ≤ stop then return t.slice i j else failure

theorem of_indexAt? {t : Text} {b i : Nat} (h : t.indexAt? b = some i) : i ≤ t.length ∧ byteOffset t i = b := by
  have hmem := List.mem_of_find?_eq_some h
  have hbyte := List.find?_some h
  simp only [List.mem_range, beq_iff_eq] at hmem hbyte
  exact ⟨by omega, hbyte⟩

theorem indexAt?_byteOffset (t : Text) (i : Nat) : t.indexAt? (byteOffset t i) = some (min i t.length) := by
  rw [← byteOffset_min, indexAt?, List.find?_range_eq_some]
  refine ⟨beq_self_eq_true _, List.mem_range.mpr (by omega), fun j hj => ?_⟩
  have hlt : byteOffset t j < byteOffset t (min i t.length) := (byteOffset_lt_iff t hj).mpr (by omega)
  simpa using Nat.ne_of_lt hlt

theorem bytes?_byteOffset (t : Text) {i j : Nat} (h : i ≤ j) :
    t.bytes? (byteOffset t i) (byteOffset t j) = some (t.slice i j) := by
  have hslice : t.slice (min i t.length) (min j t.length) = t.slice i j := by
    rw [slice, slice, ← List.take_eq_take_min]
    by_cases hle : i ≤ t.length
    · rw [Nat.min_eq_left hle]
    · -- Behind the end of the text both parts are empty.
      have hshort : (t.take j).length ≤ t.length := List.length_take_le' j t
      rw [List.drop_eq_nil_of_le (by omega), List.drop_eq_nil_of_le (by omega)]
  simp [bytes?, indexAt?_byteOffset, hslice, byteOffset_mono t h]

theorem of_bytes? {t part : Text} {start stop : Nat} (h : t.bytes? start stop = some part) :
    ∃ i, t.indexAt? start = some i ∧ i + part.length ≤ t.length := by
  simp only [bytes?, Option.bind_eq_bind, Option.bind_eq_some_iff] at h
  obtain ⟨i, hi, j, -, hpart⟩ := h
  obtain ⟨-, hslice⟩ := Option.ite_none_right_eq_some.mp hpart
  cases hslice
  have hle := (of_indexAt? hi).1
  refine ⟨i, hi, ?_⟩
  rw [length_slice]
  omega

end Text

namespace Underline
namespace Words

/-! ## Arithmetic -/

inductive Fault where
  | overflow
  | underflow
  /-- A part that the line does not have. -/
  | outside
  /-- A lower bound above the upper one. -/
  | bounds
  deriving DecidableEq, Repr

def sum (a b : Nat) : Except Fault Nat := if a + b < 2 ^ 64 then .ok (a + b) else .error .overflow

def difference (a b : Nat) : Except Fault Nat := if b ≤ a then .ok (a - b) else .error .underflow

def clamped (low high n : Nat) : Except Fault Nat := if low ≤ high then .ok (clamp low high n) else .error .bounds

/-! ## Underlines -/

/-- The positions of an underline; nothing says that they are in order. -/
structure Positions where
  outerStart : Nat
  start : Nat
  stop : Nat
  outerStop : Nat
  deriving DecidableEq, Repr

def between (start stop outerStart outerStop : Nat) : Except Fault Positions := do
  let left := max 1 outerStart
  let right := max left outerStop
  let first ← clamped left right start
  let after ← clamped first right stop
  return ⟨left, first, after, right⟩

def plain (start stop : Nat) : Except Fault Positions := between start stop start stop

def ofLine (line : Text) (start stop : Nat) : Except Fault Positions :=
  let margin := line.leadingBlanks
  plain (start - margin) (stop - margin)

/-- The characters in front of byte `b`, or all of them when no character begins there. -/
def charsBefore (segment : Text) (b : Nat) : Nat := (segment.indexAt? b).getD segment.length

def operatorSpan (segment : Text) (left right : Nat) : Except Fault (Option (Nat × Nat)) :=
  match segment.bytes? left right with
  | none => return none
  | some gap => do
    let operator := Text.dropEndWhile isFiller (gap.dropWhile isFiller)
    if operator.isEmpty then return none
    else
      let start ← sum (charsBefore segment left) (gap.takeWhile isFiller).length
      let stop ← sum start operator.length
      return some (start, stop)

/-- What to single out of an expression; the places of the outline are bytes. -/
def focus (segment : Text) : Code.Outline → Except Fault (Option (Nat × Nat))
  | .operation left right => operatorSpan segment left right
  | .subscript base stop => return some (charsBefore segment base, charsBefore segment stop)
  | .other => return none

/-- The characters `start` up to but excluding `stop`, cut out by their bytes. -/
def slice (line : Text) (start stop : Nat) : Except Fault Text :=
  match line.bytes? (byteOffset line start) (byteOffset line (max stop start)) with
  | some part => .ok part
  | none => .error .outside

/-- What to single out of a segment that the parser reports on. -/
def inner (report : Text → Option Code.Outline) (segment : Text) : Except Fault (Option (Nat × Nat)) :=
  match report segment with
  | none => return none
  | some o => focus segment o

/-- The primary span of `[start, stop)` before it is moved. -/
def primary (report : Text → Option Code.Outline) (line : Text) (start stop : Nat) : Except Fault (Nat × Nat) := do
  let segment ← slice line (← difference start 1) (← difference stop 1)
  match ← inner report segment with
  | none => return (start, stop)
  | some (first, after) => return (← sum start first, ← sum start after)

def ofSegment (report : Text → Option Code.Outline) (line : Text) (start stop : Nat) : Except Fault Positions := do
  let start := max 1 start
  if stop ≤ start then ofLine line start stop
  else
    let margin := line.leadingBlanks
    let (first, after) ← primary report line start stop
    between (first - margin) (after - margin) (start - margin) (stop - margin)

def width (x : Positions) : Except Fault Nat := difference x.outerStop 1

def render (primary secondary : Char) (x : Positions) : Except Fault Text := do
  let blanks ← difference x.outerStart 1
  let before ← difference x.start x.outerStart
  let inside ← difference x.stop x.start
  let behind ← difference x.outerStop x.stop
  return List.replicate blanks ' ' ++ List.replicate before secondary ++ List.replicate inside primary ++
    List.replicate behind secondary

/-! ## Without faults -/

theorem ok_bind {α β : Type} (a : α) (f : α → Except Fault β) : (Except.ok a >>= f) = f a := rfl

theorem sum_eq {a b : Nat} (h : a + b < 2 ^ 64) : sum a b = .ok (a + b) := if_pos h

theorem difference_eq {a b : Nat} (h : b ≤ a) : difference a b = .ok (a - b) := if_pos h

theorem clamped_eq {low high : Nat} (h : low ≤ high) (n : Nat) : clamped low high n = .ok (clamp low high n) := if_pos h

def Positions.of (u : Underline) : Positions := ⟨u.outerStart, u.start, u.stop, u.outerStop⟩

theorem between_eq (start stop outerStart outerStop : Nat) :
    between start stop outerStart outerStop = .ok (.of (Underline.between start stop outerStart outerStop)) := by
  have hleft : max 1 outerStart ≤ max (max 1 outerStart) outerStop := Nat.le_max_left ..
  have hfirst : clamp (max 1 outerStart) (max (max 1 outerStart) outerStop) start ≤
      max (max 1 outerStart) outerStop := Nat.max_le.mpr ⟨hleft, Nat.min_le_right ..⟩
  simp only [between, clamped_eq hleft, ok_bind, clamped_eq hfirst]
  rfl

theorem ofLine_eq (line : Text) (start stop : Nat) :
    ofLine line start stop = .ok (.of (Underline.ofLine line start stop)) :=
  between_eq ..

theorem render_eq (u : Underline) : render u.primary u.secondary (.of u) = .ok u.render := by
  simp only [render, Positions.of, difference_eq u.one_le_outerStart, difference_eq u.outerStart_le_start,
    difference_eq u.start_le_stop, difference_eq u.stop_le_outerStop, ok_bind]
  rfl

theorem slice_eq (line : Text) {start stop : Nat} (h : start ≤ stop) :
    slice line start stop = .ok (line.slice start stop) := by
  rw [slice, Nat.max_eq_left h, Text.bytes?_byteOffset line h]

/-! ## What is singled out -/

section Focus
variable {segment : Text}

theorem charsBefore_le (segment : Text) (b : Nat) : charsBefore segment b ≤ segment.length := by
  unfold charsBefore
  cases h : segment.indexAt? b with
  | none => exact Nat.le_refl _
  | some i => exact (Text.of_indexAt? h).1

theorem charsBefore_byteOffset {i : Nat} (h : i ≤ segment.length) : charsBefore segment (byteOffset segment i) = i := by
  rw [charsBefore, Text.indexAt?_byteOffset, Option.getD_some, Nat.min_eq_left h]

/-- Both ends of a span that is found lie in the segment. -/
def Within (segment : Text) (found : Option (Nat × Nat)) : Prop :=
  ∀ span ∈ found, span.1 ≤ segment.length ∧ span.2 ≤ segment.length

theorem within_none : Within segment none := by simp [Within]

theorem within_some {first after : Nat} (hfirst : first ≤ segment.length) (hafter : after ≤ segment.length) :
    Within segment (some (first, after)) := by
  rintro span ⟨⟩
  exact ⟨hfirst, hafter⟩

theorem operatorSpan_within (hsize : segment.length < 2 ^ 64) (left right : Nat) :
    ∃ found, operatorSpan segment left right = .ok found ∧ Within segment found := by
  unfold operatorSpan
  cases hgap : segment.bytes? left right with
  | none => exact ⟨none, rfl, within_none⟩
  | some gap =>
    obtain ⟨i, hi, hlength⟩ := Text.of_bytes? hgap
    have hbefore : charsBefore segment left = i := by rw [charsBefore, hi]; rfl
    -- Filler and operator are parts of the gap, which begins with character `i`.
    have hoperator := length_operator_le gap
    dsimp only
    split
    next => exact ⟨none, rfl, within_none⟩
    next =>
      rw [hbefore, sum_eq (by omega), ok_bind, sum_eq (by omega), ok_bind]
      exact ⟨_, rfl, within_some (by omega) (by omega)⟩

theorem focus_within (hsize : segment.length < 2 ^ 64) (o : Code.Outline) :
    ∃ found, focus segment o = .ok found ∧ Within segment found := by
  cases o with
  | operation left right => exact operatorSpan_within hsize left right
  | subscript base stop => exact ⟨_, rfl, within_some (charsBefore_le ..) (charsBefore_le ..)⟩
  | other => exact ⟨none, rfl, within_none⟩

theorem inner_within (hsize : segment.length < 2 ^ 64) (report : Text → Option Code.Outline) :
    ∃ found, inner report segment = .ok found ∧ Within segment found := by
  unfold inner
  cases report segment with
  | none => exact ⟨none, rfl, within_none⟩
  | some o => exact focus_within hsize o

theorem primary_eq {report : Text → Option Code.Outline} {line : Text} {start stop : Nat} {found : Option (Nat × Nat)}
    (hstart : 1 ≤ start) (hlt : start < stop) (hsize : stop < 2 ^ 64)
    (hfound : inner report (line.slice (start - 1) (stop - 1)) = .ok found)
    (hwithin : Within (line.slice (start - 1) (stop - 1)) found) :
    primary report line start stop = .ok (found.elim (start, stop) fun span => (start + span.1, start + span.2)) := by
  have hslice : slice line (start - 1) (stop - 1) = .ok (line.slice (start - 1) (stop - 1)) := slice_eq line (by omega)
  rw [primary, difference_eq hstart, ok_bind, difference_eq (by omega), ok_bind, hslice, ok_bind, hfound, ok_bind]
  cases found with
  | none => rfl
  | some span =>
    obtain ⟨hfirst, hafter⟩ := hwithin span rfl
    rw [Text.length_slice] at hfirst hafter
    -- No sum is above `stop`, which is a word.
    dsimp only
    rw [sum_eq (by omega), ok_bind, sum_eq (by omega)]
    rfl

/-- The primary span lies in the part, whatever is reported of it. -/
theorem primary_within (report : Text → Option Code.Outline) (line : Text) {start stop : Nat} (hstart : 1 ≤ start)
    (hlt : start < stop) (hsize : stop < 2 ^ 64) :
    ∃ first after, primary report line start stop = .ok (first, after) ∧ start ≤ first ∧ first ≤ stop ∧
      start ≤ after ∧ after ≤ stop := by
  have hlength := Text.length_slice line (start - 1) (stop - 1)
  obtain ⟨found, hfound, hwithin⟩ : ∃ found, inner report (line.slice (start - 1) (stop - 1)) = .ok found ∧
      Within (line.slice (start - 1) (stop - 1)) found := inner_within (by omega) report
  refine ⟨_, _, primary_eq hstart hlt hsize hfound hwithin, ?_⟩
  cases found with
  | none =>
    dsimp only [Option.elim]
    omega
  | some span =>
    obtain ⟨hfirst, hafter⟩ := hwithin span rfl
    dsimp only [Option.elim]
    omega

/-! ## The parser's own places -/

def inBytes (segment : Text) : Code.Outline → Code.Outline
  | .operation left right => .operation (byteOffset segment left) (byteOffset segment right)
  | .subscript base stop => .subscript (byteOffset segment base) (byteOffset segment stop)
  | .other => .other

theorem focus_inBytes (hsize : segment.length < 2 ^ 64) {o : Code.Outline} (ho : o.fits segment = true) :
    focus segment (inBytes segment o) = .ok (Underline.focus segment o) := by
  cases o with
  | operation left right =>
    obtain ⟨hleft, hright, -⟩ := Code.of_operation_fits ho
    have hlength := Text.length_slice segment left right
    have hoperator := length_operator_le (segment.slice left right)
    simp only [focus, inBytes, operatorSpan, Text.bytes?_byteOffset segment hleft, Underline.focus,
      Underline.operatorSpan, charsBefore_byteOffset (hleft.trans hright)]
    split
    next => rfl
    next => rw [sum_eq (by omega), ok_bind, sum_eq (by omega), ok_bind]; rfl
  | subscript base stop =>
    obtain ⟨hbase, hstop, -⟩ := Code.of_subscript_fits ho
    rw [inBytes, focus, charsBefore_byteOffset (by omega), charsBefore_byteOffset hstop]
    rfl
  | other => rfl

theorem inner_inBytes (hsize : segment.length < 2 ^ 64) {read : Text → Option Code.Outline}
    (hread : ∀ t o, read t = some o → o.fits t = true) :
    inner (fun t => (read t).map (inBytes t)) segment = .ok ((read segment).bind (Underline.focus segment)) := by
  unfold inner
  dsimp only
  cases h : read segment with
  | none => rfl
  | some o => exact focus_inBytes hsize (hread segment o h)

theorem within_focus {read : Text → Option Code.Outline} (hread : ∀ t o, read t = some o → o.fits t = true) :
    Within segment ((read segment).bind (Underline.focus segment)) := by
  intro span hspan
  obtain ⟨o, ho, hfocus⟩ := Option.bind_eq_some_iff.mp hspan
  obtain ⟨hlt, hafter, -⟩ := focus_inside (hread segment o ho) hfocus
  exact ⟨by omega, hafter⟩

end Focus

/-! ## Whole underlines -/

/-- Whatever is reported, the outer span is that of the part behind the blanks of the line. -/
theorem ofSegment_exists (report : Text → Option Code.Outline) (line : Text) {start stop : Nat}
    (hstart : start < 2 ^ 64) (hstop : stop < 2 ^ 64) :
    ∃ first after outerStart, ofSegment report line start stop =
      .ok (.of (Underline.between first after outerStart (stop - line.leadingBlanks))) ∧ outerStart < 2 ^ 64 := by
  unfold ofSegment
  dsimp only
  split
  next => exact ⟨_, _, _, ofLine_eq .., by omega⟩
  next hlt =>
    obtain ⟨first, after, hprimary, -⟩ :=
      primary_within report line (Nat.le_max_left 1 start) (Nat.not_le.mp hlt) hstop
    rw [hprimary, ok_bind]
    exact ⟨_, _, _, between_eq .., by omega⟩

/-- With the places that the parser reports, the underline is that of the part. -/
theorem ofSegment_eq {read : Text → Option Code.Outline} (hread : ∀ t o, read t = some o → o.fits t = true)
    (line : Text) (start : Nat) {stop : Nat} (hsize : stop < 2 ^ 64) :
    ofSegment (fun t => (read t).map (inBytes t)) line start stop = .ok (.of (ofSegmentBy read line start stop)) := by
  unfold ofSegment ofSegmentBy
  dsimp only
  split
  next => exact ofLine_eq ..
  next hlt =>
    have hlength := Text.length_slice line (max 1 start - 1) (stop - 1)
    have hfound : inner (fun t => (read t).map (inBytes t)) (line.slice (max 1 start - 1) (stop - 1)) =
        .ok ((read _).bind (Underline.focus _)) := inner_inBytes (by omega) hread
    rw [primary_eq (Nat.le_max_left 1 start) (Nat.not_le.mp hlt) hsize hfound (within_focus hread), ok_bind]
    cases (read (line.slice (max 1 start - 1) (stop - 1))).bind (Underline.focus _) with
    | none => exact between_eq ..
    | some span => exact between_eq ..

/-- An underline is found without a fault. Its positions are words in order from 1 on, and so are its markers found:
blanks in front of the outer span, the primary marker in the primary span and the secondary one elsewhere. -/
structure WellFormed (found : Except Fault Positions) (x : Positions) : Prop where
  found : found = .ok x
  one_le_outerStart : 1 ≤ x.outerStart
  outerStart_le_start : x.outerStart ≤ x.start
  start_le_stop : x.start ≤ x.stop
  stop_le_outerStop : x.stop ≤ x.outerStop
  outerStop_lt : x.outerStop < 2 ^ 64
  width : Words.width x = .ok (x.outerStop - 1)
  markers : ∀ primary secondary, ∃ t, render primary secondary x = .ok t ∧ t.length = x.outerStop - 1 ∧
    ∀ i, 1 ≤ i → i < x.outerStop → t[i - 1]? =
      some (if i < x.outerStart then ' ' else if x.start ≤ i ∧ i < x.stop then primary else secondary)

theorem wellFormed_of {found : Except Fault Positions} {u : Underline} (hfound : found = .ok (.of u))
    (hsize : u.outerStop < 2 ^ 64) : WellFormed found (.of u) where
  found := hfound
  one_le_outerStart := u.one_le_outerStart
  outerStart_le_start := u.outerStart_le_start
  start_le_stop := u.start_le_stop
  stop_le_outerStop := u.stop_le_outerStop
  outerStop_lt := hsize
  width := difference_eq (u.one_le_outerStart.trans u.outerStart_le_outerStop)
  markers primary secondary :=
    ⟨_, render_eq (u.withMarkers primary secondary), length_render (u.withMarkers primary secondary),
      fun _ hi hlt => getElem?_render (u.withMarkers primary secondary) hi hlt⟩

end Words

theorem outerStop_between_lt {outerStart outerStop : Nat} (start stop : Nat) (hstart : outerStart < 2 ^ 64)
    (hstop : outerStop < 2 ^ 64) : (between start stop outerStart outerStop).outerStop < 2 ^ 64 := by
  simp only [between]
  omega

open Words in
/-- **Underlines are computed without a fault** from any words, for any line and whatever places the parser reports: the
positions are in order and the markers stand where they say. The numbers found are those of `between`, `plain`, `ofLine`,
`render` and, with the places that the parser does report, `ofSegment`. Before it is moved, a primary span lies within
the part. -/
theorem computed_in_words (line : Text) (report : Text → Option Code.Outline)
    (start stop outerStart outerStop : UInt64) :
    WellFormed (Words.between start.toNat stop.toNat outerStart.toNat outerStop.toNat)
      (.of (between start.toNat stop.toNat outerStart.toNat outerStop.toNat)) ∧
    WellFormed (Words.plain start.toNat stop.toNat) (.of (plain start.toNat stop.toNat)) ∧
    WellFormed (Words.ofLine line start.toNat stop.toNat) (.of (ofLine line start.toNat stop.toNat)) ∧
    (∃ x, WellFormed (Words.ofSegment report line start.toNat stop.toNat) x) ∧
    WellFormed (Words.ofSegment (fun t => (Code.outline? t).map (inBytes t)) line start.toNat stop.toNat)
      (.of (ofSegment line start.toNat stop.toNat)) ∧
    (∀ u : Underline, Words.render u.primary u.secondary (.of u) = .ok u.render) ∧
    (max 1 start.toNat < stop.toNat →
      ∃ first after, Words.primary report line (max 1 start.toNat) stop.toNat = .ok (first, after) ∧
        max 1 start.toNat ≤ first ∧ first ≤ stop.toNat ∧ max 1 start.toNat ≤ after ∧ after ≤ stop.toNat) := by
  have hstart : start.toNat < 2 ^ 64 := start.toNat_lt
  have hstop : stop.toNat < 2 ^ 64 := stop.toNat_lt
  have houterStart : outerStart.toNat < 2 ^ 64 := outerStart.toNat_lt
  have houterStop : outerStop.toNat < 2 ^ 64 := outerStop.toNat_lt
  have hline : (ofLine line start.toNat stop.toNat).outerStop < 2 ^ 64 := outerStop_between_lt _ _ (by omega) (by omega)
  have hany : ∀ reported, ∃ x, WellFormed (Words.ofSegment reported line start.toNat stop.toNat) x := by
    intro reported
    obtain ⟨first, after, outerFirst, hfound, houterFirst⟩ := ofSegment_exists reported line hstart hstop
    exact ⟨_, wellFormed_of hfound (outerStop_between_lt _ _ houterFirst (by omega))⟩
  refine ⟨wellFormed_of (between_eq ..) (outerStop_between_lt _ _ houterStart houterStop),
    wellFormed_of (between_eq ..) (outerStop_between_lt _ _ hstart hstop),
    wellFormed_of (ofLine_eq ..) hline, hany report, ?_, Words.render_eq, fun hlt => ?_⟩
  · obtain ⟨x, hx⟩ := hany fun t => (Code.outline? t).map (inBytes t)
    have hread := ofSegment_eq (fun _ _ => Code.fits_of_outline?) line start.toNat hstop
    obtain rfl := Except.ok.inj (hx.found.symm.trans hread)
    exact hx
  · exact primary_within report line (Nat.le_max_left ..) hlt hstop

/-- The parser reports that the value in `é [0]` stops inside a character and all of it does at the first byte; the part
reaches as far as words do. -/
theorem computed_in_words_reversed :
    let line : Text := "  é [0]".toList
    let report : Text → Option Code.Outline := fun _ => some (.subscript 3 1)
    let stop : UInt64 := 18446744073709551615
    max 1 (0 : UInt64).toNat < stop.toNat ∧
      (∃ first after, Words.primary report line 1 stop.toNat = .ok (first, after) ∧ 1 ≤ first ∧ first ≤ stop.toNat ∧
        1 ≤ after ∧ after ≤ stop.toNat) ∧
      Words.primary report line 1 stop.toNat = .ok (8, 2) ∧
      Words.ofSegment report line 0 stop.toNat = .ok ⟨1, 6, 6, 18446744073709551613⟩ := by
  intro line report stop
  have hlt : max 1 (0 : UInt64).toNat < stop.toNat := by decide
  obtain ⟨-, -, -, -, -, -, hprimary⟩ := computed_in_words line report 0 stop 0 0
  exact ⟨hlt, hprimary hlt, by decide +kernel, by decide +kernel⟩

end Underline
end Traceback
