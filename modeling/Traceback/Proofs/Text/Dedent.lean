import Mathlib.Data.List.Forall2
import Traceback.Proofs.Text.Margin

/-! # The common margin

A text without its margin is known by its lines, however the margin was found: every line that is not hollow has lost the
same spaces and tabs, and no space and no tab is left in front of all of them.

* `Dedented`: that a text is another one without the widest margin of its lines.
* `dedented_dedent`, `Dedented.eq_dedent`: `dedent` gives such a text, and there is no other.
* `Dedented.again`, `Dedented.of_indented`: the same of a text that has lost its margin, and of one with a wider margin.
* `dedent_removes_margin`: what `dedent` gives, again and after indenting.
-/

namespace Traceback.Text
set_option autoImplicit false

variable {v w t t' u line line' rest : Text} {lines lines' rests : List Text}

/-! ## Lines with and without a margin -/

/-- `rest` is `line` without `w` in front of it; nothing is left of a hollow line. -/
def Unindented (w line rest : Text) : Prop := if isHollow line = true then rest = [] else line = w ++ rest

/-- `line'` is `line` with `w` in front of it; a hollow line may stay as it is. -/
def Indented (w line line' : Text) : Prop := line' = w ++ line ∨ isHollow line = true ∧ line' = line

theorem withoutMargin_append (h : isHollow (w ++ rest) = false) : withoutMargin w.length (w ++ rest) = rest := by
  rw [withoutMargin, h, if_neg Bool.false_ne_true, List.drop_left]

theorem unindented_iff :
    Unindented w line rest ↔ rest = withoutMargin w.length line ∧ (isHollow line = false → w <+: line) := by
  unfold Unindented withoutMargin
  cases isHollow line with
  | true => simp
  | false =>
    rw [if_neg Bool.false_ne_true, if_neg Bool.false_ne_true]
    constructor
    · rintro rfl
      exact ⟨(List.drop_left ..).symm, fun _ => List.prefix_append ..⟩
    · rintro ⟨rfl, hbegins⟩
      exact (List.prefix_iff_eq_append.mp (hbegins rfl)).symm

theorem isHollow_append (hw : ∀ c ∈ w, isMarginChar c = true) (line : Text) : isHollow (w ++ line) = isHollow line := by
  rw [isHollow, List.all_append, List.all_eq_true.mpr hw, Bool.true_and]
  rfl

theorem Unindented.isHollow_eq (hw : ∀ c ∈ w, isMarginChar c = true) (h : Unindented w line rest) :
    isHollow line = isHollow rest := by
  unfold Unindented at h
  split at h
  next hhollow => rw [hhollow, h]; rfl
  next => rw [h, isHollow_append hw]

theorem Indented.isHollow_eq (hw : ∀ c ∈ w, isMarginChar c = true) (h : Indented w line line') :
    isHollow line = isHollow line' := by
  rcases h with rfl | ⟨-, rfl⟩
  · rw [isHollow_append hw]
  · rfl

theorem Indented.unindented (hv : ∀ c ∈ v, isMarginChar c = true) (h : Indented v line line')
    (hrest : Unindented w line rest) : Unindented (v ++ w) line' rest := by
  have hsame := h.isHollow_eq hv
  unfold Unindented at hrest ⊢
  rw [← hsame]
  split at hrest
  next hhollow => rwa [if_pos hhollow]
  next hsolid =>
    rw [if_neg hsolid]
    rcases h with rfl | ⟨hhollow, -⟩
    · rw [hrest, List.append_assoc]
    · exact absurd hhollow hsolid

/-! ## All lines -/

theorem forall₂_unindented_iff : List.Forall₂ (Unindented w) lines rests ↔
    rests = lines.map (withoutMargin w.length) ∧ ∀ line ∈ lines, isHollow line = false → w <+: line := by
  constructor
  · intro h
    induction h with
    | nil => exact ⟨rfl, fun line hline => absurd hline List.not_mem_nil⟩
    | cons hline _ ih =>
      obtain ⟨hrest, hbegins⟩ := unindented_iff.mp hline
      exact ⟨by rw [List.map_cons, hrest, ih.1], List.forall_mem_cons.mpr ⟨hbegins, ih.2⟩⟩
  · rintro ⟨rfl, hbegins⟩
    rw [List.forall₂_map_right_iff, List.forall₂_same]
    exact fun line hline => unindented_iff.mpr ⟨rfl, hbegins line hline⟩

theorem forall₂_unindented_of_indented (hv : ∀ c ∈ v, isMarginChar c = true) (h : List.Forall₂ (Indented v) lines lines')
    (hrests : List.Forall₂ (Unindented w) lines rests) : List.Forall₂ (Unindented (v ++ w)) lines' rests := by
  induction h generalizing rests with
  | nil =>
    cases hrests
    exact .nil
  | cons hline _ ih =>
    cases hrests with
    | cons hrest hrests => exact .cons (hline.unindented hv hrest) (ih hrests)

/-- Where every line stays hollow or stays solid, some line is solid before and after, or none is. -/
theorem exists_solid_iff {R : Text → Text → Prop} (hR : ∀ line rest, R line rest → isHollow line = isHollow rest)
    (h : List.Forall₂ R lines rests) :
    (∃ line ∈ lines, isHollow line = false) ↔ ∃ rest ∈ rests, isHollow rest = false := by
  induction h with
  | nil => simp
  | cons hline _ ih => rw [List.exists_mem_cons_iff, List.exists_mem_cons_iff, hR _ _ hline, ih]

/-! ## Texts without a margin -/

/-- `u` is `t` without the margin `w`, line by line, and the lines of `t` have no wider one. -/
structure Dedented (w t u : Text) : Prop where
  marginChars : ∀ c ∈ w, isMarginChar c = true
  eachLine : List.Forall₂ (Unindented w) (cut '\n' t) (cut '\n' u)
  widest : (∃ line ∈ cut '\n' t, isHollow line = false) →
    ∀ c, isMarginChar c = true → ¬ ∀ rest ∈ cut '\n' u, isHollow rest = false → [c] <+: rest

theorem isMarginChar_of_mem_margin {c : Char} (h : c ∈ margin lines) : isMarginChar c = true := by
  by_cases hsolid : ∃ line ∈ lines, isHollow line = false
  · exact ((prefix_margin_iff hsolid).mp (List.prefix_refl _)).1 c h
  · have hfilter : (lines.filter fun line => !isHollow line) = [] := by
      rw [List.filter_eq_nil_iff]
      intro line hline hhollow
      exact hsolid ⟨line, hline, by simpa using hhollow⟩
    rw [margin, hfilter] at h
    cases h

theorem cut_dedent (t : Text) :
    cut '\n' (dedent t) = (cut '\n' t).map (withoutMargin (margin (cut '\n' t)).length) := by
  refine cut_joined (fun hnil => cut_ne_nil _ t (List.map_eq_nil_iff.mp hnil)) ?_
  rw [dedentLines, List.forall_mem_map]
  intro line hline
  split
  · exact List.not_mem_nil
  · exact fun h => notMem_of_mem_cut hline (List.mem_of_mem_drop h)

theorem dedented_dedent (t : Text) : Dedented (margin (cut '\n' t)) t (dedent t) := by
  have hchars : ∀ c ∈ margin (cut '\n' t), isMarginChar c = true := fun c => isMarginChar_of_mem_margin
  have hlines : List.Forall₂ (Unindented (margin (cut '\n' t))) (cut '\n' t) (cut '\n' (dedent t)) := by
    refine forall₂_unindented_iff.mpr ⟨cut_dedent t, fun line hline hhollow => ?_⟩
    obtain ⟨-, hbegins⟩ := margin_prefix hline hhollow
    exact hbegins
  refine ⟨hchars, hlines, fun hsolid c hc hall => ?_⟩
  -- a character in front of all that is left would belong to the margin
  have hwider : margin (cut '\n' t) ++ [c] <+: margin (cut '\n' t) := by
    rw [prefix_margin_iff hsolid]
    refine ⟨List.forall_mem_append.mpr ⟨hchars, by simpa using hc⟩, fun line hline hhollow => ?_⟩
    obtain ⟨-, rest, rfl⟩ := margin_prefix hline hhollow
    have hrest : rest ∈ cut '\n' (dedent t) := by
      rw [cut_dedent]
      exact List.mem_map.mpr ⟨_, hline, withoutMargin_append hhollow⟩
    rw [isHollow_append hchars] at hhollow
    exact (List.prefix_append_right_inj _).mpr (hall rest hrest hhollow)
  have hlength := hwider.length_le
  rw [List.length_append, List.length_singleton] at hlength
  omega

namespace Dedented

theorem cut_eq (h : Dedented w t u) : cut '\n' u = (cut '\n' t).map (withoutMargin w.length) :=
  (forall₂_unindented_iff.mp h.eachLine).1

theorem unindented (h : Dedented w t u) (hline : line ∈ cut '\n' t) : Unindented w line (withoutMargin w.length line) :=
  unindented_iff.mpr ⟨rfl, (forall₂_unindented_iff.mp h.eachLine).2 line hline⟩

theorem eq_margin (h : Dedented w t u) (hsolid : ∃ line ∈ cut '\n' t, isHollow line = false) :
    w = margin (cut '\n' t) := by
  have hbegins : w <+: margin (cut '\n' t) :=
    (prefix_margin_iff hsolid).mpr ⟨h.marginChars, (forall₂_unindented_iff.mp h.eachLine).2⟩
  obtain ⟨more, hmore⟩ := hbegins
  cases more with
  | nil => rw [← hmore, List.append_nil]
  | cons c more =>
    have hc : isMarginChar c = true := isMarginChar_of_mem_margin (hmore ▸ List.mem_append_right w (List.mem_cons_self ..))
    -- what goes on after `w` in the margin is left in front of all lines
    refine absurd (fun rest hrest hhollow => ?_) (h.widest hsolid c hc)
    rw [h.cut_eq, List.mem_map] at hrest
    obtain ⟨line, hline, rfl⟩ := hrest
    rw [← (h.unindented hline).isHollow_eq h.marginChars] at hhollow
    obtain ⟨-, others, hothers⟩ := margin_prefix hline hhollow
    rw [← hmore, List.append_assoc] at hothers
    rw [← hothers] at hhollow ⊢
    rw [withoutMargin_append hhollow]
    exact ⟨more ++ others, rfl⟩

/-- **Nothing else is left.** -/
theorem eq_dedent (h : Dedented w t u) : u = dedent t := by
  have hcut : cut '\n' u = cut '\n' (dedent t) := by
    rw [h.cut_eq, cut_dedent]
    by_cases hsolid : ∃ line ∈ cut '\n' t, isHollow line = false
    · rw [h.eq_margin hsolid]
    · refine List.map_congr_left fun line hline => ?_
      have hhollow : isHollow line = true := by
        by_contra hhollow
        exact hsolid ⟨line, hline, by simpa using hhollow⟩
      rw [withoutMargin, withoutMargin, hhollow, if_pos rfl, if_pos rfl]
  rw [← joined_cut '\n' u, hcut, joined_cut]

theorem solid_iff (h : Dedented w t u) :
    (∃ line ∈ cut '\n' t, isHollow line = false) ↔ ∃ rest ∈ cut '\n' u, isHollow rest = false :=
  exists_solid_iff (fun _ _ => Unindented.isHollow_eq h.marginChars) h.eachLine

theorem again (h : Dedented w t u) : Dedented [] u u := by
  refine ⟨fun c hc => absurd hc List.not_mem_nil, List.forall₂_same.mpr fun rest hrest => ?_,
    fun hsolid => h.widest (h.solid_iff.mpr hsolid)⟩
  unfold Unindented
  split
  next hhollow =>
    rw [h.cut_eq, List.mem_map] at hrest
    obtain ⟨line, hline, rfl⟩ := hrest
    rw [withoutMargin, (h.unindented hline).isHollow_eq h.marginChars, if_pos hhollow]
  next => rfl

theorem of_indented (h : Dedented w t u) (hv : ∀ c ∈ v, isMarginChar c = true)
    (hlines : List.Forall₂ (Indented v) (cut '\n' t) (cut '\n' t')) : Dedented (v ++ w) t' u := by
  have hsolid := exists_solid_iff (fun _ _ => Indented.isHollow_eq hv) hlines
  exact ⟨List.forall_mem_append.mpr ⟨hv, h.marginChars⟩, forall₂_unindented_of_indented hv hlines h.eachLine,
    fun h' => h.widest (hsolid.mpr h')⟩

end Dedented

/-- **Only the common margin is taken away.** There is one text with as many lines in which every hollow line has become
empty and every other line lacks the same spaces and tabs in front, so many of them that no space and no tab is left in
front of all. It has no margin to lose again, and is the same for the text with its lines indented as one. -/
theorem dedent_removes_margin (t : Text) :
    (∀ u, (∃ w, Dedented w t u) ↔ u = dedent t) ∧ dedent (dedent t) = dedent t ∧
      ∀ v t', (∀ c ∈ v, isMarginChar c = true) → List.Forall₂ (Indented v) (cut '\n' t) (cut '\n' t') →
        dedent t' = dedent t := by
  have hdedent := dedented_dedent t
  refine ⟨fun u => ⟨?_, ?_⟩, hdedent.again.eq_dedent.symm, fun v t' hv hlines => ?_⟩
  · rintro ⟨w, h⟩
    exact h.eq_dedent
  · rintro rfl
    exact ⟨_, hdedent⟩
  · exact (hdedent.of_indented hv hlines).eq_dedent.symm

example : dedent "\t  a\n\t b".toList = " a\nb".toList := by decide +kernel

/-- Three lines behind a tab, of which the hollow one stays as it is. -/
theorem dedent_removes_margin_tab :
    let t : Text := " a\n  \n  b".toList
    let t' : Text := "\t a\n  \n\t  b".toList
    (∀ c ∈ ['\t'], isMarginChar c = true) ∧ List.Forall₂ (Indented ['\t']) (cut '\n' t) (cut '\n' t') ∧
      dedent t' = dedent t := by
  intro t t'
  have htab : ∀ c ∈ ['\t'], isMarginChar c = true := List.all_eq_true.mp rfl
  have hlines : List.Forall₂ (Indented ['\t']) (cut '\n' t) (cut '\n' t') :=
    .cons (.inl rfl) (.cons (.inr ⟨rfl, rfl⟩) (.cons (.inl rfl) .nil))
  exact ⟨htab, hlines, (dedent_removes_margin t).2.2 ['\t'] t' htab hlines⟩

end Traceback.Text
