import Traceback.Proofs.Underline.Focus

/-! # Underlines that point at something

The span that is singled out is moved behind the blanks of the line and into the outer span. Neither step makes it
empty, since it begins behind a character that is no blank and ends within the part.

* `Underline.focus_inside`: where the span that is singled out lies in the part.
* `Underline.primary_visible`: an underline that marks anything marks something as the part that failed.
-/

namespace Traceback
set_option autoImplicit false

namespace Underline

/-! ## The span in the part -/

theorem length_operator_le (gap : Text) :
    (gap.takeWhile isFiller).length + (Text.dropEndWhile isFiller (gap.dropWhile isFiller)).length ≤ gap.length := by
  have htrim : (Text.dropEndWhile isFiller (gap.dropWhile isFiller)).length ≤ (gap.dropWhile isFiller).length := by
    rw [Text.dropEndWhile_eq_rdropWhile]
    exact (List.rdropWhile_prefix ..).length_le
  have hsplit := congrArg List.length (List.takeWhile_append_dropWhile (p := isFiller) (l := gap))
  rw [List.length_append] at hsplit
  omega

theorem operatorSpan_inside {segment : Text} {left right first after : Nat}
    (h : operatorSpan segment left right = some (first, after)) :
    left ≤ first ∧ first < after ∧ after ≤ left + (segment.slice left right).length := by
  have hlength := length_operator_le (segment.slice left right)
  simp only [operatorSpan, List.isEmpty_iff, Option.ite_none_left_eq_some, Option.some.injEq, Prod.mk.injEq] at h
  obtain ⟨hop, rfl, rfl⟩ := h
  have hpos := List.length_pos_iff.mpr hop
  omega

/-- What is singled out of a part is not empty, lies in it, and has a character in front that is no blank. -/
theorem focus_inside {segment : Text} {o : Code.Outline} {first after : Nat} (ho : o.fits segment = true)
    (h : focus segment o = some (first, after)) :
    first < after ∧ after ≤ segment.length ∧ ∃ c ∈ segment.take first, Text.isBlank c = false := by
  cases o with
  | operation left right =>
    obtain ⟨hleft, hright, c, hc, hblank⟩ := Code.of_operation_fits ho
    obtain ⟨hfirst, hlt, hafter⟩ := operatorSpan_inside h
    rw [Text.length_slice] at hafter
    exact ⟨hlt, by omega, c, List.take_subset_take_left _ hfirst hc, hblank⟩
  | subscript base stop =>
    obtain ⟨rfl, rfl⟩ : base = first ∧ stop = after := by simpa [focus] using h
    exact Code.of_subscript_fits ho
  | other => simp [focus] at h

/-! ## The span in the line -/

/-- The primary span is empty only when the outer one is, and else it is drawn. -/
def Points (u : Underline) : Prop := u.isEmpty = false → u.start < u.stop ∧ u.primary ∈ u.render

theorem points_of_lt {u : Underline} (h : u.start < u.stop) : u.Points := by
  refine fun _ => ⟨h, ?_⟩
  have hpos : u.stop - u.start ≠ 0 := by omega
  simp [render, hpos]

theorem ofLine_points (line : Text) (start stop : Nat) : (ofLine line start stop).Points := by
  intro hvisible
  refine points_of_lt ?_ hvisible
  simp only [isEmpty, ofLine, plain, between, clamp, beq_eq_false_iff_ne] at hvisible ⊢
  omega

theorem narrowed_points (line : Text) {start stop first after : Nat} (hstart : 1 ≤ start) (hlt : first < after)
    (hafter : after ≤ (line.slice (start - 1) (stop - 1)).length)
    (hvisible : ∃ c ∈ (line.slice (start - 1) (stop - 1)).take first, Text.isBlank c = false) :
    (narrowed line start stop (some (first, after))).Points := by
  obtain ⟨c, hc, hblank⟩ := hvisible
  have hmargin : line.leadingBlanks < start - 1 + first :=
    Text.leadingBlanks_lt (Text.mem_take_of_mem_take_slice hc) hblank
  rw [Text.length_slice] at hafter
  obtain ⟨hfirst, hlast⟩ := narrowed_inner line (show line.leadingBlanks + 1 ≤ start + first by omega)
    (Nat.le_of_lt hlt) (show start + after ≤ stop by omega)
  apply points_of_lt
  omega

/-- **An underline that marks anything points at something.** Whether or not the part of the line is an expression,
whatever it is, and wherever it begins: when the underline is not empty its primary span is not, so that at least one
primary marker is drawn. Of what tells the outlines no more is asked than that the left operand, or the value, has a
character that is no blank, and that it stands in the part and in front of what follows it. -/
theorem primary_visible (line : Text) (start stop : Nat) :
    (∀ read : Text → Option Code.Outline, (∀ t o, read t = some o → o.fits t = true) →
      (ofSegmentBy read line start stop).Points) ∧ (ofSegment line start stop).Points := by
  have hpoints : ∀ read : Text → Option Code.Outline, (∀ t o, read t = some o → o.fits t = true) →
      (ofSegmentBy read line start stop).Points := by
    intro read hread
    unfold ofSegmentBy
    dsimp only
    split
    next => exact ofLine_points line _ stop
    next hlt =>
      cases hfocus : (read (line.slice (max 1 start - 1) (stop - 1))).bind (focus _) with
      | none => exact ofLine_points line _ stop
      | some span =>
        obtain ⟨o, ho, hspan⟩ := Option.bind_eq_some_iff.mp hfocus
        obtain ⟨hspanlt, hafter, hvisible⟩ := focus_inside (hread _ o ho) hspan
        exact narrowed_points line (Nat.le_max_left 1 start) hspanlt hafter hvisible
  exact ⟨hpoints, hpoints Code.outline? fun _ _ => Code.fits_of_outline?⟩

/-- A part that begins within the blanks in front of `é ** b`. -/
theorem primary_visible_indented :
    let line : Text := "    é ** b".toList
    let read : Text → Option Code.Outline := fun t =>
      if (Code.Outline.operation 4 8).fits t then some (.operation 4 8) else none
    (∀ t o, read t = some o → o.fits t = true) ∧ (ofSegmentBy read line 2 11).isEmpty = false ∧
      (ofSegmentBy read line 2 11).start < (ofSegmentBy read line 2 11).stop ∧
      '^' ∈ (ofSegmentBy read line 2 11).render ∧ (ofSegmentBy read line 2 11).render = "~~^^~~".toList := by
  intro line read
  have hread : ∀ t o, read t = some o → o.fits t = true := by
    intro t o h
    obtain ⟨hfits, ho⟩ := Option.ite_none_right_eq_some.mp h
    cases ho
    exact hfits
  have hvisible : (ofSegmentBy read line 2 11).isEmpty = false := by decide +kernel
  obtain ⟨hlt, hmarker⟩ := (primary_visible line 2 11).1 read hread hvisible
  exact ⟨hread, hvisible, hlt, hmarker, by decide +kernel⟩

end Underline
end Traceback
