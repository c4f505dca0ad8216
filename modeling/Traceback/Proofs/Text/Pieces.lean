import Traceback.Text.Basic

/-! # Cutting and joining

* `joined_cons_joined`: pieces that are joined twice are as joined once.
* `cut_append_cons`, `cut_append`: a text is cut at its separators, and first at the first one.
* `cut_joined`, `joined_cut`: cutting and joining undo each other.
* `dropPrefix?_append`, `eq_append_of_dropPrefix?`: what is left of a text without its beginning.
-/

namespace Traceback.Text
set_option autoImplicit false

variable {α : Type}

/-! ## Joining -/

theorem joined_cons (sep piece : List α) {pieces : List (List α)} (h : pieces ≠ []) :
    joined sep (piece :: pieces) = piece ++ sep ++ joined sep pieces := by
  cases pieces with
  | nil => exact absurd rfl h
  | cons next pieces => rfl

theorem joined_cons_joined (sep : List α) {inner : List (List α)} (h : inner ≠ []) (outer : List (List α)) :
    joined sep (joined sep inner :: outer) = joined sep (inner ++ outer) := by
  induction inner with
  | nil => exact absurd rfl h
  | cons piece inner ih =>
    cases inner with
    | nil => rfl
    | cons next inner =>
      have ih := ih (List.cons_ne_nil _ _)
      cases outer with
      | nil => rw [List.append_nil]; rfl
      | cons other outer =>
        calc joined sep (joined sep (piece :: next :: inner) :: other :: outer)
            = piece ++ sep ++ joined sep (next :: inner) ++ sep ++ joined sep (other :: outer) := rfl
          _ = piece ++ sep ++ (joined sep (next :: inner) ++ sep ++ joined sep (other :: outer)) := by
            simp only [List.append_assoc]
          _ = piece ++ sep ++ joined sep (next :: inner ++ other :: outer) := congrArg (piece ++ sep ++ ·) ih
          _ = joined sep (piece :: next :: inner ++ other :: outer) := rfl

theorem joined_ne_nil (sep : List α) {pieces : List (List α)} (h : pieces ≠ []) (hp : ∀ p ∈ pieces, p ≠ []) :
    joined sep pieces ≠ [] := by
  cases pieces with
  | nil => exact absurd rfl h
  | cons piece pieces =>
    have hpiece : piece ≠ [] := hp piece (List.mem_cons_self ..)
    cases pieces with
    | nil => exact hpiece
    | cons next pieces =>
      rw [joined_cons sep piece (List.cons_ne_nil _ _), List.append_assoc]
      exact List.append_ne_nil_of_left_ne_nil hpiece _

/-! ## Cutting -/

variable [DecidableEq α] {sep : α}

theorem cut_of_notMem {t : List α} (h : sep ∉ t) : cut sep t = [t] := by
  induction t with
  | nil => rfl
  | cons a t ih =>
    rw [List.mem_cons, not_or] at h
    rw [cut, if_neg (Ne.symm h.1), ih h.2]

theorem cut_ne_nil (sep : α) (t : List α) : cut sep t ≠ [] := by
  cases t with
  | nil => exact List.cons_ne_nil _ _
  | cons a t =>
    rw [cut]
    split
    next => exact List.cons_ne_nil _ _
    next => split <;> exact List.cons_ne_nil _ _

theorem cut_append_cons (s t : List α) : cut sep (s ++ sep :: t) = cut sep s ++ cut sep t := by
  induction s with
  | nil => exact if_pos rfl
  | cons a s ih =>
    obtain ⟨piece, pieces, hs⟩ := List.exists_cons_of_ne_nil (cut_ne_nil sep s)
    rw [List.cons_append, cut, cut, ih, hs]
    by_cases ha : a = sep
    · rw [if_pos ha, if_pos ha]
      rfl
    · rw [if_neg ha, if_neg ha]
      rfl

theorem cut_append {s : List α} (h : sep ∉ s) (t : List α) : cut sep (s ++ sep :: t) = s :: cut sep t := by
  rw [cut_append_cons, cut_of_notMem h]
  rfl

theorem notMem_of_mem_cut {t piece : List α} (h : piece ∈ cut sep t) : sep ∉ piece := by
  induction t generalizing piece with
  | nil =>
    rw [List.mem_singleton.mp h]
    exact List.not_mem_nil
  | cons a t ih =>
    obtain ⟨first, pieces, ht⟩ := List.exists_cons_of_ne_nil (cut_ne_nil sep t)
    rw [cut, ht] at h
    rw [ht] at ih
    by_cases ha : a = sep
    · rw [if_pos ha, List.mem_cons] at h
      rcases h with rfl | h
      · exact List.not_mem_nil
      · exact ih h
    · rw [if_neg ha, List.mem_cons] at h
      rcases h with rfl | h
      · rw [List.mem_cons, not_or]
        exact ⟨Ne.symm ha, ih (List.mem_cons_self ..)⟩
      · exact ih (List.mem_cons_of_mem _ h)

theorem cut_joined {pieces : List (List α)} (hne : pieces ≠ []) (h : ∀ piece ∈ pieces, sep ∉ piece) :
    cut sep (joined [sep] pieces) = pieces := by
  induction pieces with
  | nil => exact absurd rfl hne
  | cons piece pieces ih =>
    obtain ⟨hpiece, hpieces⟩ := List.forall_mem_cons.mp h
    cases pieces with
    | nil => exact cut_of_notMem hpiece
    | cons next pieces =>
      rw [joined_cons _ _ (List.cons_ne_nil _ _), List.append_assoc, List.singleton_append, cut_append hpiece,
        ih (List.cons_ne_nil _ _) hpieces]

theorem joined_cut (sep : α) (t : List α) : joined [sep] (cut sep t) = t := by
  induction t with
  | nil => rfl
  | cons a t ih =>
    obtain ⟨piece, pieces, ht⟩ := List.exists_cons_of_ne_nil (cut_ne_nil sep t)
    rw [ht] at ih
    rw [cut, ht]
    by_cases ha : a = sep
    · rw [if_pos ha, joined_cons _ _ (List.cons_ne_nil _ _), ih, ha]
      rfl
    · rw [if_neg ha, ← ih]
      cases pieces <;> rfl

/-! ## Beginnings -/

theorem dropPrefix?_append (start t : List α) : dropPrefix? start (start ++ t) = some t := by
  induction start with
  | nil => rfl
  | cons a start ih => rw [List.cons_append, dropPrefix?, if_pos rfl, ih]

theorem eq_append_of_dropPrefix? {start t rest : List α} (h : dropPrefix? start t = some rest) : t = start ++ rest := by
  induction start generalizing t with
  | nil =>
    cases h
    rfl
  | cons a start ih =>
    cases t with
    | nil => cases h
    | cons b t =>
      rw [dropPrefix?] at h
      split at h
      next e =>
        rw [e, ih h]
        rfl
      next => cases h

end Traceback.Text
