import Traceback.Proofs.Code.Outline
import Traceback.Proofs.Text.Trim
import Traceback.Proofs.Underline

/-! # What is singled out

What an underline singles out is found in a part of a line, as a span counted from where that part begins, and moved
from there: behind the blanks in front of the line, and into the outer span.

* `Text.slice_slice`: a part of a part of a line.
* `Underline.ofSegmentBy_focus`: moving the span does not change what it covers, when it ends within the part and begins
  behind a character that is no blank.
* `Underline.operatorSpan_eq`: the operator is what is left of the gap between the operands without filler at its ends.
* `Underline.operator_singled_out`: the primary span covers the operator and nothing else.
-/

namespace Traceback
set_option autoImplicit false

/-! ## Parts of lines -/

namespace Text

theorem length_slice (t : Text) (start stop : Nat) : (t.slice start stop).length = min stop t.length - start := by
  rw [slice, List.length_drop, List.length_take]

theorem slice_slice (t : Text) (start stop first after : Nat) (h : start + after ≤ stop) :
    (t.slice start stop).slice first after = t.slice (start + first) (start + after) := by
  have hstop : min (start + after) stop = start + after := Nat.min_eq_left h
  rw [slice, slice, slice, List.take_drop, List.take_take, hstop, List.drop_drop]

theorem mem_take_of_mem_take_slice {t : Text} {start stop n : Nat} {c : Char} (h : c ∈ (t.slice start stop).take n) :
    c ∈ t.take (start + n) := by
  rw [slice, List.take_drop, List.take_take] at h
  exact (List.take_subset_take_left t (Nat.min_le_left ..)) (List.mem_of_mem_drop h)

theorem slice_append (before middle after : Text) :
    (before ++ middle ++ after).slice before.length (before.length + middle.length) = middle := by
  rw [slice, ← List.length_append, List.take_left, List.drop_left]

/-- The middle of a part of a text, by the lengths of what stands around it. -/
theorem slice_of_slice_eq {t : Text} {start stop : Nat} {before middle after : Text}
    (h : t.slice start stop = before ++ middle ++ after) :
    t.slice (start + before.length) (start + before.length + middle.length) = middle := by
  have hlength := congrArg List.length h
  rw [length_slice, List.length_append, List.length_append] at hlength
  have hinner := slice_append before middle after
  rw [← h] at hinner
  by_cases hle : start + (before.length + middle.length) ≤ stop
  · rw [slice_slice _ _ _ _ _ hle, ← Nat.add_assoc] at hinner
    exact hinner
  · have hnil : middle = [] := List.length_eq_zero_iff.mp (by omega)
    rw [hnil, slice, List.length_nil, Nat.add_zero, List.drop_take, Nat.sub_self, List.take_zero]

/-- The blanks that a line begins with end before any other character. -/
theorem leadingBlanks_lt {t : Text} {n : Nat} {c : Char} (hc : c ∈ t.take n) (hblank : isBlank c = false) :
    t.leadingBlanks < n := by
  by_contra hle
  have hblanks : t.takeWhile isBlank = t.take t.leadingBlanks :=
    List.prefix_iff_eq_take.mp (List.takeWhile_prefix isBlank)
  have hmem : c ∈ t.takeWhile isBlank := by
    rw [hblanks]
    exact List.take_subset_take_left t (Nat.not_lt.mp hle) hc
  rw [List.mem_takeWhile_imp hmem] at hblank
  cases hblank

end Text

namespace Underline

/-! ## Moving spans -/

theorem clamp_eq_self {low high n : Nat} (hlow : low ≤ n) (hhigh : n ≤ high) : clamp low high n = n := by
  rw [clamp, Nat.min_eq_left hhigh, Nat.max_eq_right hlow]

/-- A span that begins behind the leading blanks of a line and ends where the outer one does, or before, stays. -/
theorem narrowed_inner (line : Text) {start stop first after : Nat} (hmargin : line.leadingBlanks + 1 ≤ start + first)
    (horder : first ≤ after) (hstop : start + after ≤ stop) :
    (narrowed line start stop (some (first, after))).start + line.leadingBlanks = start + first ∧
      (narrowed line start stop (some (first, after))).stop + line.leadingBlanks = start + after := by
  have hfirst : clamp (max 1 (start - line.leadingBlanks))
      (max (max 1 (start - line.leadingBlanks)) (stop - line.leadingBlanks)) (start + first - line.leadingBlanks) =
        start + first - line.leadingBlanks := clamp_eq_self (by omega) (by omega)
  have hafter : clamp (start + first - line.leadingBlanks)
      (max (max 1 (start - line.leadingBlanks)) (stop - line.leadingBlanks)) (start + after - line.leadingBlanks) =
        start + after - line.leadingBlanks := clamp_eq_self (by omega) (by omega)
  simp only [narrowed, between, hfirst, hafter]
  omega

section Focus
variable {read : Text → Option Code.Outline} {line : Text} {start stop first after : Nat} {o : Code.Outline}

/-- What is singled out of a part of a line is singled out of the line. -/
theorem ofSegmentBy_focus (hstart : 1 ≤ start) (hstop : start < stop)
    (houtline : read (line.slice (start - 1) (stop - 1)) = some o)
    (hfocus : focus (line.slice (start - 1) (stop - 1)) o = some (first, after))
    (hvisible : ∃ c ∈ (line.slice (start - 1) (stop - 1)).take first, Text.isBlank c = false) (horder : first ≤ after)
    (hlength : after ≤ (line.slice (start - 1) (stop - 1)).length) :
    let u := ofSegmentBy read line start stop
    let margin := line.leadingBlanks
    u.start + margin = start + first ∧ u.stop + margin = start + after ∧
      line.slice (u.start + margin - 1) (u.stop + margin - 1) =
        (line.slice (start - 1) (stop - 1)).slice first after := by
  intro u margin
  obtain ⟨c, hc, hblank⟩ := hvisible
  have hmargin : margin < start - 1 + first := Text.leadingBlanks_lt (Text.mem_take_of_mem_take_slice hc) hblank
  rw [Text.length_slice] at hlength
  have hu : u = narrowed line start stop (some (first, after)) := by
    show ofSegmentBy read line start stop = _
    rw [ofSegmentBy]
    simp only [Nat.max_eq_right hstart, if_neg (Nat.not_le.mpr hstop), houtline, Option.bind_some, hfocus]
  have hinside : start + after ≤ stop := by omega
  obtain ⟨hfirst, hafter⟩ := narrowed_inner line (show margin + 1 ≤ start + first by omega) horder hinside
  rw [← hu] at hfirst hafter
  refine ⟨hfirst, hafter, ?_⟩
  have hleft : start + first - 1 = start - 1 + first := by omega
  have hright : start + after - 1 = start - 1 + after := by omega
  rw [hfirst, hafter, hleft, hright, Text.slice_slice _ _ _ _ _ (by omega)]

end Focus

/-! ## Operators -/

section Operator
variable {w₁ op w₂ : Text}

/-- Between filler on both sides, an operator that neither begins nor ends with filler is found. -/
theorem operatorSpan_eq {segment : Text} {left right : Nat} (hgap : segment.slice left right = w₁ ++ op ++ w₂)
    (hw₁ : ∀ c ∈ w₁, isFiller c = true) (hw₂ : ∀ c ∈ w₂, isFiller c = true) (hop : op ≠ [])
    (hfirst : ∀ c ∈ op.head?, isFiller c = false) (hlast : ∀ c ∈ op.getLast?, isFiller c = false) :
    operatorSpan segment left right = some (left + w₁.length, left + w₁.length + op.length) := by
  obtain ⟨c, tail, hcons⟩ := List.exists_cons_of_ne_nil hop
  have hc : ¬ isFiller c = true := by simp [hfirst c (by rw [hcons]; rfl)]
  have htake : (w₁ ++ op ++ w₂).takeWhile isFiller = w₁ := by
    rw [hcons, List.append_assoc, List.takeWhile_append_of_pos hw₁, List.cons_append, List.takeWhile_cons_of_neg hc,
      List.append_nil]
  have hdrop : (w₁ ++ op ++ w₂).dropWhile isFiller = op ++ w₂ := by
    rw [hcons, List.append_assoc, List.dropWhile_append_of_pos hw₁, List.cons_append, List.dropWhile_cons_of_neg hc]
  have htrim : Text.dropEndWhile isFiller (op ++ w₂) = op := by
    obtain ⟨init, d, hconcat⟩ := (List.eq_nil_or_concat op).resolve_left hop
    rw [List.concat_eq_append] at hconcat
    have hd : ¬ isFiller d = true := by simp [hlast d (by rw [hconcat, List.getLast?_concat]; rfl)]
    rw [Text.dropEndWhile, List.reverse_append,
      List.dropWhile_append_of_pos fun c hc => hw₂ c (List.mem_reverse.mp hc), hconcat, List.reverse_concat,
      List.dropWhile_cons_of_neg hd, ← List.reverse_concat, List.reverse_reverse]
  have hempty : op.isEmpty = false := by simpa using hop
  rw [operatorSpan, hgap, htake, hdrop, htrim]
  simp only [hempty]
  rfl

/-- The primary span of `u` covers `op` and nothing else, which begins `first` characters behind `start`, and the outer
span covers the part `[start, stop)` of the line as far as it is not made of the blanks in front of the line. -/
structure SinglesOut (u : Underline) (line : Text) (start stop first : Nat) (op : Text) : Prop where
  start_eq : u.start + line.leadingBlanks = start + first
  stop_eq : u.stop + line.leadingBlanks = start + first + op.length
  covered : line.slice (u.start + line.leadingBlanks - 1) (u.stop + line.leadingBlanks - 1) = op
  outerStart_eq : u.outerStart = max 1 (start - line.leadingBlanks)
  outerStop_eq : u.outerStop + line.leadingBlanks = stop
  outer : ∀ i, line.leadingBlanks < i →
    (u.outerStart + line.leadingBlanks ≤ i ∧ i < u.outerStop + line.leadingBlanks ↔ start ≤ i ∧ i < stop)

/-- **The operator of an operation is singled out.** Where the gap between the operands is an operator with blanks and
round brackets around it, the primary span covers the operator and nothing else, and the outer span the whole part as
far as it is not made of the blanks in front of the line. Of what tells the outlines no more is asked than that the
operands stand in order in the part, and that the left one has a character that is no blank. -/
theorem operator_singled_out (line : Text) (start stop left right : Nat) (w₁ op w₂ : Text) (hstart : 1 ≤ start)
    (hstop : start < stop) (hgap : (line.slice (start - 1) (stop - 1)).slice left right = w₁ ++ op ++ w₂)
    (hw₁ : ∀ c ∈ w₁, isFiller c = true) (hw₂ : ∀ c ∈ w₂, isFiller c = true) (hop : op ≠ [])
    (hfirst : ∀ c ∈ op.head?, isFiller c = false) (hlast : ∀ c ∈ op.getLast?, isFiller c = false) :
    (∀ read : Text → Option Code.Outline, (∀ t o, read t = some o → o.fits t = true) →
      read (line.slice (start - 1) (stop - 1)) = some (.operation left right) →
      (ofSegmentBy read line start stop).SinglesOut line start stop (left + w₁.length) op) ∧
    (Code.outline? (line.slice (start - 1) (stop - 1)) = some (.operation left right) →
      (ofSegment line start stop).SinglesOut line start stop (left + w₁.length) op) := by
  have hsingles : ∀ read : Text → Option Code.Outline, (∀ t o, read t = some o → o.fits t = true) →
      read (line.slice (start - 1) (stop - 1)) = some (.operation left right) →
      (ofSegmentBy read line start stop).SinglesOut line start stop (left + w₁.length) op := by
    intro read hread hparse
    obtain ⟨hleft, hright, c, hc, hblank⟩ := Code.of_operation_fits (hread _ _ hparse)
    have hlength : w₁.length + op.length + w₂.length = right - left := by
      have h := congrArg List.length hgap
      rw [Text.length_slice, List.length_append, List.length_append] at h
      omega
    have hpositive : 0 < op.length := List.length_pos_of_ne_nil hop
    have hvisible : c ∈ (line.slice (start - 1) (stop - 1)).take (left + w₁.length) :=
      List.take_subset_take_left _ (Nat.le_add_right ..) hc
    have hmargin : line.leadingBlanks < start - 1 + left :=
      Text.leadingBlanks_lt (Text.mem_take_of_mem_take_slice hc) hblank
    have hinside : right ≤ stop - start := by
      rw [Text.length_slice] at hright
      omega
    obtain ⟨hfirst', hlast', hcovers⟩ := ofSegmentBy_focus hstart hstop hparse
      (operatorSpan_eq hgap hw₁ hw₂ hop hfirst hlast) ⟨c, hvisible, hblank⟩ (by omega) (by omega)
    rw [Text.slice_of_slice_eq hgap] at hcovers
    have hspans := ofSegmentBy_spans read line start stop hstart
    have houter := hspans.outerStart_eq
    have houterStop := hspans.outerStop_eq
    exact ⟨hfirst', by omega, hcovers, houter, by omega, fun i hi => by omega⟩
  exact ⟨hsingles, hsingles Code.outline? fun _ _ => Code.fits_of_outline?⟩

/-- `(é) ** (b)` in the indented line `x = (é) ** (b)`. -/
theorem operator_singled_out_power :
    let line : Text := "  x = (é) ** (b)".toList
    (Code.outline? (line.slice 6 16) = some (.operation 2 8) ∧ (line.slice 6 16).slice 2 8 = ") ** (".toList) ∧
      (ofSegment line 7 17).start + line.leadingBlanks = 11 ∧ (ofSegment line 7 17).stop + line.leadingBlanks = 13 ∧
      line.slice 10 12 = "**".toList := by
  intro line
  have hparse : Code.outline? (line.slice 6 16) = some (.operation 2 8) := by decide +kernel
  have hgap : (line.slice 6 16).slice 2 8 = ") ".toList ++ "**".toList ++ " (".toList := by decide +kernel
  have hw₁ : ∀ c ∈ ") ".toList, isFiller c = true := List.all_eq_true.mp (by decide)
  have hw₂ : ∀ c ∈ " (".toList, isFiller c = true := List.all_eq_true.mp (by decide)
  have hfirst : ∀ c ∈ "**".toList.head?, isFiller c = false := by
    rintro c ⟨⟩
    rfl
  have hlast : ∀ c ∈ "**".toList.getLast?, isFiller c = false := by
    rintro c ⟨⟩
    rfl
  have hsingles := operator_singled_out line 7 17 2 8 ") ".toList "**".toList " (".toList (by decide) (by decide) hgap
    hw₁ hw₂ (by decide) hfirst hlast
  obtain ⟨hstart, hstop, hcovers, -, -, -⟩ := hsingles.1 Code.outline? (fun _ _ => Code.fits_of_outline?) hparse
  rw [hstart, hstop] at hcovers
  exact ⟨⟨hparse, hgap⟩, hstart, hstop, hcovers⟩

end Operator
end Underline
end Traceback
