import Mathlib.Data.List.DropRight
import Traceback.Proofs.Text.Pieces
import Traceback.Text.Margin
import Traceback.Text.Offset

/-! # Trimmed and indented text

* `Text.trimEnd_eq`: a text that is not blank is its leading blanks, what trimming leaves, and blanks.
* `Text.indent_line`, `Text.indent_lines`: one and two lines that are not blank.
-/

namespace Traceback.Text
set_option autoImplicit false

/-! ## Trimming -/

theorem dropEndWhile_eq_rdropWhile (p : Char → Bool) (t : Text) : dropEndWhile p t = t.rdropWhile p := rfl

theorem dropEndWhile_append (p : Char → Bool) (s t : Text) (h : dropEndWhile p t ≠ []) :
    dropEndWhile p (s ++ t) = s ++ dropEndWhile p t := by
  have hne : ¬ (t.reverse.dropWhile p).isEmpty = true := by
    intro hempty
    apply h
    rw [dropEndWhile, List.isEmpty_iff.mp hempty]
    rfl
  rw [dropEndWhile, List.reverse_append, List.dropWhile_append, if_neg hne, List.reverse_append, List.reverse_reverse]
  rfl

theorem leadingBlanks_append_trimStart (t : Text) : t.takeWhile isBlank ++ t.trimStart = t :=
  List.takeWhile_append_dropWhile

theorem trim_prefix_trimStart (t : Text) : t.trim <+: t.trimStart := by
  rw [trim, trimEnd, dropEndWhile_eq_rdropWhile]
  exact List.rdropWhile_prefix ..

theorem mem_of_mem_trim {t : Text} {c : Char} (h : c ∈ t.trim) : c ∈ t := by
  rw [← leadingBlanks_append_trimStart t]
  exact List.mem_append_right _ ((trim_prefix_trimStart t).subset h)

theorem leadingBlanks_add_length_trim_le (t : Text) : t.leadingBlanks + t.trim.length ≤ t.length := by
  have hlength := congrArg List.length (leadingBlanks_append_trimStart t)
  have hle := (trim_prefix_trimStart t).length_le
  rw [List.length_append] at hlength
  rw [leadingBlanks]
  omega

theorem trimEnd_eq (t : Text) (h : t.trim ≠ []) : t.trimEnd = t.takeWhile isBlank ++ t.trim := by
  have hsplit := dropEndWhile_append isBlank (t.takeWhile isBlank) t.trimStart h
  rw [leadingBlanks_append_trimStart] at hsplit
  exact hsplit

theorem length_trimEnd (t : Text) (h : t.trim ≠ []) : t.trimEnd.length = t.leadingBlanks + t.trim.length := by
  rw [trimEnd_eq t h, List.length_append]
  rfl

/-- The first character that is left is no blank. -/
theorem all_isBlank_trim (t : Text) (h : t.trim ≠ []) : t.trim.all isBlank = false := by
  obtain ⟨rest, hrest⟩ := trim_prefix_trimStart t
  cases htrim : t.trim with
  | nil => exact absurd htrim h
  | cons c s =>
    have hstart : t.dropWhile isBlank = c :: (s ++ rest) := by rw [← List.cons_append, ← htrim]; exact hrest.symm
    have hc := List.head?_dropWhile_not isBlank t
    rw [hstart] at hc
    rw [List.all_cons, show isBlank c = false from hc]
    rfl

/-! ## Indenting -/

theorem indent_line (start : Text) {t : Text} (ht : '\n' ∉ t) (hblank : t.all isBlank = false) :
    indent start t = start ++ t := by
  rw [indent, cut_of_notMem ht, List.map_singleton, hblank]
  rfl

theorem indent_append_cons (start s t : Text) :
    indent start (s ++ '\n' :: t) = indent start s ++ '\n' :: indent start t := by
  have hs : (cut '\n' s).map (fun line => if line.all isBlank then line else start ++ line) ≠ [] := by
    simpa using cut_ne_nil '\n' s
  have ht : (cut '\n' t).map (fun line => if line.all isBlank then line else start ++ line) ≠ [] := by
    simpa using cut_ne_nil '\n' t
  rw [indent, cut_append_cons, List.map_append, ← joined_cons_joined _ hs, joined_cons _ _ ht, List.append_assoc]
  rfl

theorem indent_lines (start : Text) {s t : Text} (hs : '\n' ∉ s) (hsblank : s.all isBlank = false) (ht : '\n' ∉ t)
    (htblank : t.all isBlank = false) :
    indent start (s ++ '\n' :: t) = start ++ s ++ '\n' :: (start ++ t) := by
  rw [indent_append_cons, indent_line start hs hsblank, indent_line start ht htblank]

theorem indent_ne_nil (start : Text) {t : Text} (hblank : t.all isBlank = false) : indent start t ≠ [] := by
  by_cases hfeed : '\n' ∈ t
  · obtain ⟨first, rest, rfl⟩ := List.append_of_mem hfeed
    rw [indent_append_cons]
    exact List.append_ne_nil_of_right_ne_nil _ (List.cons_ne_nil _ _)
  · rw [indent_line start hfeed hblank]
    refine List.append_ne_nil_of_right_ne_nil _ ?_
    rintro rfl
    cases hblank

end Traceback.Text
