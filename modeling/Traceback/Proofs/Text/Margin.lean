import Mathlib.Data.List.Infix
import Traceback.Proofs.Text.Pieces
import Traceback.Text.Margin

/-! # Narrowed margins

* `prefix_margin_iff`: the margin is the longest text that all lines begin with.
* `Narrowed`: that a text is another one with less white space at the beginnings of its lines.
* `dedent_indented`: what is left of lines of which only the first is known to be indented.
-/

namespace Traceback.Text
set_option autoImplicit false

/-! ## Margins -/

theorem prefix_commonPrefix_iff {p s t : Text} : p <+: commonPrefix s t ↔ p <+: s ∧ p <+: t := by
  induction s generalizing p t with
  | nil =>
    rw [commonPrefix.eq_def, and_iff_left_of_imp]
    rintro hp
    rw [List.prefix_nil.mp hp]
    exact List.nil_prefix
  | cons a s ih =>
    cases p with
    | nil => simp
    | cons c p =>
      cases t with
      | nil => simp [commonPrefix]
      | cons b t =>
        rw [commonPrefix]
        split
        next hab =>
          rw [List.cons_prefix_cons, List.cons_prefix_cons, List.cons_prefix_cons, ih, ← hab]
          tauto
        next hab =>
          refine iff_of_false (fun h => absurd (List.prefix_nil.mp h) (List.cons_ne_nil _ _)) ?_
          rintro ⟨hs, ht⟩
          exact hab ((List.cons_prefix_cons.mp hs).1.symm.trans (List.cons_prefix_cons.mp ht).1)

theorem prefix_foldl_commonPrefix_iff {p first : Text} {others : List Text} :
    p <+: others.foldl commonPrefix first ↔ p <+: first ∧ ∀ t ∈ others, p <+: t := by
  induction others generalizing first with
  | nil => simp
  | cons t others ih => rw [List.foldl_cons, ih, prefix_commonPrefix_iff, List.forall_mem_cons, and_assoc]

theorem prefix_takeWhile_iff {q : Char → Bool} {p t : Text} :
    p <+: t.takeWhile q ↔ p <+: t ∧ ∀ c ∈ p, q c = true := by
  constructor
  · intro h
    exact ⟨h.trans (List.takeWhile_prefix q), fun c hc => List.all_eq_true.mp List.all_takeWhile c (h.subset hc)⟩
  · rintro ⟨⟨rest, rfl⟩, hp⟩
    rw [List.takeWhile_append_of_pos hp]
    exact List.prefix_append p _

theorem prefix_margin_iff {p : Text} {lines : List Text} (h : ∃ line ∈ lines, isHollow line = false) :
    p <+: margin lines ↔ (∀ c ∈ p, isMarginChar c = true) ∧ ∀ line ∈ lines, isHollow line = false → p <+: line := by
  have hlines : p <+: margin lines ↔
      ∀ t ∈ (lines.filter fun line => !isHollow line).map (·.takeWhile isMarginChar), p <+: t := by
    obtain ⟨line, hline, hhollow⟩ := h
    have hmem : line ∈ lines.filter fun line => !isHollow line := by simp [hline, hhollow]
    rw [margin]
    cases hfilter : lines.filter fun line => !isHollow line with
    | nil => rw [hfilter] at hmem; cases hmem
    | cons first others => rw [List.map_cons, List.forall_mem_cons]; exact prefix_foldl_commonPrefix_iff
  obtain ⟨line, hline, hhollow⟩ := h
  rw [hlines]
  simp only [List.forall_mem_map, List.mem_filter, Bool.not_eq_true', and_imp, prefix_takeWhile_iff]
  constructor
  · intro h
    exact ⟨(h line hline hhollow).2, fun t ht hhollow => (h t ht hhollow).1⟩
  · rintro ⟨hp, h⟩ t ht hhollow
    exact ⟨h t ht hhollow, hp⟩

/-- Every line that is not hollow begins with the margin. -/
theorem margin_prefix {lines : List Text} {line : Text} (hline : line ∈ lines) (hhollow : isHollow line = false) :
    (∀ c ∈ margin lines, isMarginChar c = true) ∧ margin lines <+: line := by
  obtain ⟨hmargin, hlines⟩ := (prefix_margin_iff ⟨line, hline, hhollow⟩).mp (List.prefix_refl _)
  exact ⟨hmargin, hlines line hline hhollow⟩

/-! ## Lines -/

/-- The text of some lines, each of them ended. -/
def ofLines (lines : List Text) : Text := lines.flatMap fun line => line ++ ['\n']

theorem ofLines_cons (line : Text) (lines : List Text) : ofLines (line :: lines) = line ++ '\n' :: ofLines lines := by
  rw [ofLines, List.flatMap_cons, List.append_assoc]
  rfl

theorem cut_ofLines {lines : List Text} (h : ∀ line ∈ lines, '\n' ∉ line) : cut '\n' (ofLines lines) = lines ++ [[]] := by
  induction lines with
  | nil => rfl
  | cons line lines ih =>
    obtain ⟨hline, hlines⟩ := List.forall_mem_cons.mp h
    rw [ofLines_cons, cut_append hline, ih hlines, List.cons_append]

theorem joined_ofLines (lines : List Text) : joined ['\n'] (lines ++ [[]]) = ofLines lines := by
  induction lines with
  | nil => rfl
  | cons line lines ih =>
    rw [List.cons_append, joined_cons _ _ (List.append_ne_nil_of_right_ne_nil _ (List.cons_ne_nil _ _)), ih, ofLines_cons,
      List.append_assoc]
    rfl

/-- A line without the margin, which is `width` wide. -/
def withoutMargin (width : Nat) (line : Text) : Text := if isHollow line then [] else line.drop width

theorem margin_concat_nil (lines : List Text) : margin (lines ++ [[]]) = margin lines := by
  have hfilter : ((lines ++ [[]]).filter fun line => !isHollow line) = lines.filter fun line => !isHollow line := by
    rw [List.filter_append, show ([[]] : List Text).filter (fun line => !isHollow line) = [] from rfl, List.append_nil]
  rw [margin, hfilter]
  rfl

theorem dedent_ofLines {lines : List Text} (h : ∀ line ∈ lines, '\n' ∉ line) :
    dedent (ofLines lines) = ofLines (lines.map (withoutMargin (margin lines).length)) := by
  rw [dedent, cut_ofLines h, dedentLines, margin_concat_nil, List.map_append, ← joined_ofLines]
  rfl

/-! ## Narrowing -/

/-- `u` is `t` without some of the spaces and tabs that its lines begin with; `atStart` when `t` begins a line. -/
inductive Narrowed : (atStart : Bool) → Text → Text → Prop where
  | nil {atStart : Bool} : Narrowed atStart [] []
  | keep {atStart : Bool} {c : Char} {t u : Text} (h : Narrowed (c == '\n') t u) : Narrowed atStart (c :: t) (c :: u)
  | drop {c : Char} {t u : Text} (hc : isMarginChar c = true) (h : Narrowed true t u) : Narrowed true (c :: t) u

namespace Narrowed
variable {atStart : Bool} {c : Char} {t u : Text}

theorem refl (atStart : Bool) (t : Text) : Narrowed atStart t t := by
  induction t generalizing atStart with
  | nil => exact .nil
  | cons c t ih => exact .keep (ih _)

theorem start (h : Narrowed atStart t u) : Narrowed true t u := by
  cases h with
  | nil => exact .nil
  | keep h => exact .keep h
  | drop hc h => exact .drop hc h

/-- A character that is no space and no tab is kept. -/
theorem of_cons (hc : isMarginChar c = false) (h : Narrowed atStart (c :: t) u) : Narrowed false (c :: t) u := by
  cases h with
  | keep h => exact .keep h
  | drop hc' _ => rw [hc] at hc'; cases hc'

theorem of_head? (hhead : ∀ c ∈ t.head?, isMarginChar c = false) (h : Narrowed atStart t u) : Narrowed false t u := by
  cases t with
  | nil =>
    cases h with
    | nil => exact .nil
  | cons c t => exact h.of_cons (hhead c rfl)

theorem nil_left (h : Narrowed atStart [] u) : u = [] := by
  cases h with
  | nil => rfl

theorem cons_left (h : Narrowed false (c :: t) u) : ∃ u', u = c :: u' ∧ Narrowed (c == '\n') t u' := by
  cases h with
  | keep h => exact ⟨_, rfl, h⟩

theorem cons_right {t : Text} (h : Narrowed false t (c :: u)) : ∃ t', t = c :: t' ∧ Narrowed (c == '\n') t' u := by
  cases h with
  | keep h => exact ⟨_, rfl, h⟩

theorem head?_eq (h : Narrowed false t u) : t.head? = u.head? := by
  cases h with
  | nil => rfl
  | keep h => rfl

theorem sublist (h : Narrowed atStart t u) : u.Sublist t := by
  induction h with
  | nil => exact List.Sublist.slnil
  | keep _ ih => exact ih.cons_cons _
  | drop _ _ ih => exact ih.cons _

theorem of_append {gap : Text} (hgap : ∀ c ∈ gap, isMarginChar c = true) (h : Narrowed true t u) :
    Narrowed true (gap ++ t) u := by
  induction gap with
  | nil => exact h
  | cons c gap ih =>
    obtain ⟨hc, hgap⟩ := List.forall_mem_cons.mp hgap
    exact .drop hc (ih hgap)

/-- The rest of a line is as it was. -/
theorem append {words : Text} (hwords : '\n' ∉ words) (h : Narrowed false t u) :
    Narrowed atStart (words ++ t) (words ++ u) := by
  induction words generalizing atStart with
  | nil =>
    cases atStart with
    | false => exact h
    | true => exact h.start
  | cons c words ih =>
    rw [List.mem_cons, not_or] at hwords
    refine .keep ?_
    rw [beq_false_of_ne (Ne.symm hwords.1)]
    exact ih hwords.2

theorem line {words : Text} (hwords : '\n' ∉ words) (h : Narrowed true t u) :
    Narrowed atStart (words ++ '\n' :: t) (words ++ '\n' :: u) := .append hwords (.keep h)

theorem ofLines_map {width : Nat} {lines : List Text} (hlines : ∀ line ∈ lines, '\n' ∉ line)
    (hwidth : ∀ line ∈ lines, isHollow line = false → ∀ c ∈ line.take width, isMarginChar c = true) :
    Narrowed true (ofLines lines) (ofLines (lines.map (withoutMargin width))) := by
  induction lines with
  | nil => exact .nil
  | cons line lines ih =>
    obtain ⟨hline, hlines⟩ := List.forall_mem_cons.mp hlines
    obtain ⟨hfirst, hwidth⟩ := List.forall_mem_cons.mp hwidth
    rw [List.map_cons, ofLines_cons, ofLines_cons, withoutMargin]
    split
    next hhollow => exact of_append (List.all_eq_true.mp hhollow) (.line List.not_mem_nil (ih hlines hwidth))
    next hhollow =>
      have hkept : '\n' ∉ line.drop width := fun h => hline (List.mem_of_mem_drop h)
      have hnarrowed := of_append (hfirst (by simpa using hhollow)) (.line hkept (ih hlines hwidth))
      rwa [← List.append_assoc, List.take_append_drop] at hnarrowed

end Narrowed

/-! ## Indented statements -/

theorem take_length_margin {lines : List Text} {line : Text} (hline : line ∈ lines) (hhollow : isHollow line = false) :
    ∀ c ∈ line.take (margin lines).length, isMarginChar c = true := by
  obtain ⟨hmargin, hbegins⟩ := margin_prefix hline hhollow
  rwa [← List.prefix_iff_eq_take.mp hbegins]

/-- A margin in front of a character that is no space and no tab is as long as what stands there, or shorter. -/
theorem prefix_of_prefix_append {p w first : Text} (hp : ∀ c ∈ p, isMarginChar c = true)
    (hfirst : ∀ c ∈ first.head?, isMarginChar c = false) (h : p <+: w ++ first) : p <+: w := by
  induction w generalizing p with
  | nil =>
    cases p with
    | nil => exact List.nil_prefix
    | cons c p =>
      obtain ⟨rest, rfl⟩ := h
      have hc := hfirst c rfl
      rw [hp c (List.mem_cons_self ..)] at hc
      cases hc
  | cons d w ih =>
    cases p with
    | nil => exact List.nil_prefix
    | cons c p =>
      obtain ⟨rfl, hrest⟩ := List.cons_prefix_cons.mp h
      exact List.cons_prefix_cons.mpr ⟨rfl, ih (fun d hd => hp d (List.mem_cons_of_mem _ hd)) hrest⟩

/-- **Lines of which the first is indented.** Without their margin, something may be left of the indentation; else the
text is the one without it, with narrower margins. Nothing is left when every line that is not hollow is indented as much,
or when the first is empty. -/
theorem dedent_indented {w first : Text} {rest : List Text} (hw : ∀ c ∈ w, isMarginChar c = true)
    (hfirst : ∀ c ∈ first.head?, isMarginChar c = false) (hline : '\n' ∉ first) (hrest : ∀ line ∈ rest, '\n' ∉ line) :
    ∃ residue u, dedent (ofLines ((w ++ first) :: rest)) = residue ++ u ∧ Narrowed false (ofLines (first :: rest)) u ∧
      (∀ c ∈ residue, isMarginChar c = true) ∧
      (residue = [] ↔ first = [] ∨ ∀ line ∈ rest, isHollow line = false → w <+: line) := by
  obtain ⟨lines, hlines⟩ : ∃ lines, lines = (w ++ first) :: rest := ⟨_, rfl⟩
  obtain ⟨width, hwidth⟩ : ∃ width, width = (margin lines).length := ⟨_, rfl⟩
  have hlineEnd : '\n' ∉ w := fun h => absurd (hw _ h) (by decide)
  have hdedent : dedent (ofLines lines) = withoutMargin width (w ++ first) ++ '\n' ::
      ofLines (rest.map (withoutMargin width)) := by
    have hall : ∀ line ∈ lines, '\n' ∉ line := by
      rw [hlines]
      exact List.forall_mem_cons.mpr ⟨by simp [hlineEnd, hline], hrest⟩
    rw [dedent_ofLines hall, ← hwidth, hlines, List.map_cons, ofLines_cons]
  have hnarrowed : Narrowed true (ofLines rest) (ofLines (rest.map (withoutMargin width))) := by
    refine Narrowed.ofLines_map hrest fun line hline => ?_
    rw [hwidth]
    exact take_length_margin (hlines ▸ List.mem_cons_of_mem _ hline)
  rw [← hlines, hdedent, ofLines_cons]
  cases first with
  | nil =>
    have hempty : withoutMargin width (w ++ []) = [] := by
      rw [withoutMargin, List.append_nil]
      exact if_pos (List.all_eq_true.mpr hw)
    rw [hempty]
    exact ⟨[], _, rfl, .line List.not_mem_nil hnarrowed, fun c hc => absurd hc List.not_mem_nil, by simp⟩
  | cons c first =>
    have hhollow : isHollow (w ++ c :: first) = false := by
      rw [isHollow, List.all_append, List.all_cons, hfirst c rfl, Bool.false_and, Bool.and_false]
    have hmem : w ++ c :: first ∈ lines := hlines ▸ List.mem_cons_self ..
    obtain ⟨hmargin, hbegins⟩ := margin_prefix hmem hhollow
    have hshorter : margin lines <+: w := prefix_of_prefix_append hmargin hfirst hbegins
    have hdrop : withoutMargin width (w ++ c :: first) = w.drop width ++ c :: first := by
      rw [withoutMargin, hhollow, if_neg (by decide), List.drop_append_of_le_length (hwidth ▸ hshorter.length_le)]
    have hwhole : w.drop width = [] ↔ w <+: margin lines := by
      rw [List.drop_eq_nil_iff, hwidth]
      constructor
      · exact fun h => hshorter.eq_of_length (Nat.le_antisymm hshorter.length_le h) ▸ List.prefix_refl _
      · exact fun h => h.length_le
    rw [hdrop, List.append_assoc]
    refine ⟨w.drop width, _, rfl, .line hline hnarrowed, fun d hd => hw d (List.mem_of_mem_drop hd), ?_⟩
    rw [hwhole, prefix_margin_iff ⟨_, hmem, hhollow⟩, and_iff_right hw, hlines, List.forall_mem_cons]
    simp

end Traceback.Text
