import Traceback.Underline

/-! # What underlines mark

* `Underline.render_eq`: the blanks in front of the outer span, then a marker for each of its characters.
* `Underline.ofSegmentBy_spans`: the outer span does not depend on what the segment says.
* `Marks`: markers beneath a line, by the characters that they mark.
-/

namespace Traceback
set_option autoImplicit false

/-- `markers` marks the characters with `p`, counted from 0, and ends below the last of them. -/
structure Marks (markers : Text) (p : Nat → Prop) : Prop where
  marked_iff : ∀ i, markers.getD i ' ' ≠ ' ' ↔ p i
  ends : ∃ i, markers.length = i + 1 ∧ p i ∧ ∀ j, p j → j ≤ i

namespace Underline

/-! ## Markers -/

theorem outerStart_le_outerStop (u : Underline) : u.outerStart ≤ u.outerStop :=
  Nat.le_trans u.outerStart_le_start (Nat.le_trans u.start_le_stop u.stop_le_outerStop)

/-- The markers of the outer span. -/
def markers (u : Underline) : Text :=
  List.replicate (u.start - u.outerStart) u.secondary ++ List.replicate (u.stop - u.start) u.primary ++
    List.replicate (u.outerStop - u.stop) u.secondary

theorem render_eq (u : Underline) : u.render = List.replicate (u.outerStart - 1) ' ' ++ u.markers := by
  simp only [render, markers, List.append_assoc]

theorem length_markers (u : Underline) : u.markers.length = u.outerStop - u.outerStart := by
  have hstart := u.outerStart_le_start
  have hstop := u.start_le_stop
  have houter := u.stop_le_outerStop
  simp only [markers, List.length_append, List.length_replicate]
  omega

theorem eq_of_mem_markers {u : Underline} {c : Char} (h : c ∈ u.markers) : c = u.primary ∨ c = u.secondary := by
  simp only [markers, List.mem_append, List.mem_replicate] at h
  rcases h with (⟨-, h⟩ | ⟨-, h⟩) | ⟨-, h⟩
  · exact Or.inr h
  · exact Or.inl h
  · exact Or.inr h

/-- Whether both sorts of markers can be told from blanks and line ends. -/
def Visible (u : Underline) : Prop := u.primary = '^' ∧ u.secondary = '~'

theorem markers_of_mem {u : Underline} (hu : u.Visible) {c : Char} (h : c ∈ u.markers) : c = '^' ∨ c = '~' := by
  rw [← hu.1, ← hu.2]
  exact eq_of_mem_markers h

theorem getD_render_ne_blank_iff {u : Underline} (hu : u.Visible) (i : Nat) :
    u.render.getD i ' ' ≠ ' ' ↔ u.outerStart ≤ i + 1 ∧ i + 1 < u.outerStop := by
  have hone := u.one_le_outerStart
  have hlength := u.length_markers
  rw [render_eq, List.getD_eq_getElem?_getD, List.getElem?_append, List.length_replicate]
  split
  next h =>
    rw [List.getElem?_replicate, if_pos h]
    exact iff_of_false (fun h => h rfl) (by omega)
  next h =>
    cases hc : u.markers[i - (u.outerStart - 1)]? with
    | none =>
      have hle := List.getElem?_eq_none_iff.mp hc
      exact iff_of_false (fun h => h rfl) (by omega)
    | some c =>
      obtain ⟨hlt, -⟩ := List.getElem?_eq_some_iff.mp hc
      refine iff_of_true ?_ (by omega)
      rcases markers_of_mem hu (List.mem_of_getElem? hc) with rfl | rfl
      · exact (by decide : '^' ≠ ' ')
      · exact (by decide : '~' ≠ ' ')

theorem length_render (u : Underline) : u.render.length = u.outerStop - 1 := by
  have hone := u.one_le_outerStart
  have houter := u.outerStart_le_outerStop
  rw [render_eq, List.length_append, List.length_replicate, length_markers]
  omega

theorem getElem?_render (u : Underline) {i : Nat} (hi : 1 ≤ i) (hlt : i < u.outerStop) : u.render[i - 1]? =
    some (if i < u.outerStart then ' ' else if u.start ≤ i ∧ i < u.stop then u.primary else u.secondary) := by
  have hone := u.one_le_outerStart
  have hstart := u.outerStart_le_start
  have hstop := u.start_le_stop
  have houter := u.stop_le_outerStop
  simp only [render, List.getElem?_append, List.getElem?_replicate, List.length_append, List.length_replicate]
  -- By the part of the text: blanks, then secondary, primary and again secondary markers.
  by_cases hblank : i < u.outerStart
  · rw [if_pos (by omega), if_pos (by omega), if_pos (by omega), if_pos (by omega), if_pos hblank]
  · rw [if_neg hblank]
    by_cases hbefore : i < u.start
    · rw [if_pos (by omega), if_pos (by omega), if_neg (by omega), if_pos (by omega), if_neg (by omega)]
    · by_cases hinside : i < u.stop
      · rw [if_pos (by omega), if_neg (by omega), if_pos (by omega), if_pos ⟨by omega, hinside⟩]
      · rw [if_neg (by omega), if_pos (by omega), if_neg (by omega)]

theorem marks_render {u : Underline} (hu : u.Visible) (h : u.outerStart < u.outerStop) :
    Marks u.render fun i => u.outerStart ≤ i + 1 ∧ i + 1 < u.outerStop where
  marked_iff := getD_render_ne_blank_iff hu
  ends := by
    have hone := u.one_le_outerStart
    refine ⟨u.outerStop - 2, ?_, ⟨by omega, by omega⟩, fun j hj => by omega⟩
    rw [length_render]
    omega

theorem lineFeed_notMem_render {u : Underline} (hu : u.Visible) : '\n' ∉ u.render := by
  intro h
  rw [render_eq, List.mem_append, List.mem_replicate] at h
  rcases h with ⟨-, h⟩ | h
  · exact absurd h (by decide)
  · rcases markers_of_mem hu h with h | h
    · exact absurd h (by decide)
    · exact absurd h (by decide)

theorem all_isBlank_render {u : Underline} (hu : u.Visible) (h : u.outerStart < u.outerStop) :
    u.render.all Text.isBlank = false := by
  have hne : u.markers ≠ [] := by
    intro he
    have hlength := u.length_markers
    rw [he, List.length_nil] at hlength
    omega
  obtain ⟨c, s, hmarkers⟩ := List.exists_cons_of_ne_nil hne
  have hc : Text.isBlank c = false := by
    have hmem : c ∈ u.markers := by rw [hmarkers]; exact List.mem_cons_self ..
    rcases markers_of_mem hu hmem with rfl | rfl
    · decide
    · decide
  rw [render_eq, hmarkers, List.all_append, List.all_cons, hc, Bool.false_and, Bool.and_false]

/-! ## Outer spans -/

/-- The outer span of `u` is `[start, stop)` moved behind the first `margin` characters of a line. -/
structure Spans (u : Underline) (margin start stop : Nat) : Prop where
  visible : u.Visible
  outerStart_eq : u.outerStart = max 1 (start - margin)
  outerStop_eq : u.outerStop = max u.outerStart (stop - margin)

theorem ofLine_spans (line : Text) (start stop : Nat) :
    (ofLine line start stop).Spans line.leadingBlanks start stop :=
  ⟨⟨rfl, rfl⟩, rfl, rfl⟩

theorem narrowed_spans (line : Text) (start stop : Nat) (inner : Option (Nat × Nat)) :
    (narrowed line start stop inner).Spans line.leadingBlanks start stop :=
  ⟨⟨rfl, rfl⟩, rfl, rfl⟩

/-- Whatever the segment says, and whether it is an expression at all. -/
theorem ofSegmentBy_spans (read : Text → Option Code.Outline) (line : Text) (start stop : Nat) (hstart : 1 ≤ start) :
    (ofSegmentBy read line start stop).Spans line.leadingBlanks start stop := by
  unfold ofSegmentBy
  dsimp only
  rw [Nat.max_eq_right hstart]
  split
  · exact ofLine_spans line start stop
  · exact narrowed_spans line start stop _

theorem ofSegment_spans (line : Text) (start stop : Nat) (hstart : 1 ≤ start) :
    (ofSegment line start stop).Spans line.leadingBlanks start stop :=
  ofSegmentBy_spans Code.outline? line start stop hstart

end Underline
end Traceback
