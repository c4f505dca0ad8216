import Traceback.Proofs.Pattern.Composition
import Traceback.Proofs.Text.Pieces

/-! # Landmarks

What the fixed characters of a pattern say of all its texts, by computation.

* `openings`, `divergesFrom`: the fixed characters that texts begin with, and that a given beginning is none of them.
* `leastCount`: how often a character occurs at least.
* `Matches.seq_last`: a part that prefers longer texts ends at the last landmark, when none is left over for it.
-/

namespace Traceback.Pattern
set_option autoImplicit false

/-! ## Openings -/

/-- The fixed characters that a text of a pattern begins with; `whole` when they are all of the text. -/
structure Opening where
  start : Text
  whole : Bool

/-- Every text of the pattern has one of these openings. -/
def openings : Pattern → List Opening
  | nothing => [⟨[], true⟩]
  | one (.exactly c) => [⟨[c], true⟩]
  | one _ | many .. => [⟨[], false⟩]
  | seq first second =>
    first.openings.flatMap fun o =>
      if o.whole then second.openings.map fun o' => ⟨o.start ++ o'.start, o'.whole⟩ else [o]
  | alt first second => first.openings ++ second.openings
  | optional p => p.openings ++ [⟨[], true⟩]
  | named _ p => p.openings

/-- The text begins as the opening says. -/
def Opening.Opens (o : Opening) (t : Text) : Prop := o.start <+: t ∧ (o.whole = true → o.start = t)

theorem exists_opening {p : Pattern} {t : Text} (h : t ∈ p.language) : ∃ o ∈ p.openings, o.Opens t := by
  induction p generalizing t with
  | nothing =>
    obtain rfl := (Language.mem_one t).mp h
    exact ⟨_, List.mem_singleton_self _, List.nil_prefix, fun _ => rfl⟩
  | one s =>
    cases s with
    | exactly c =>
      obtain rfl := mem_language_one_exactly.mp h
      exact ⟨_, List.mem_singleton_self _, List.prefix_rfl, fun _ => rfl⟩
    | _ => exact ⟨_, List.mem_singleton_self _, List.nil_prefix, fun hwhole => by cases hwhole⟩
  | many => exact ⟨_, List.mem_singleton_self _, List.nil_prefix, fun hwhole => by cases hwhole⟩
  | seq first second ihFirst ihSecond =>
    obtain ⟨u, hu, v, hv, rfl⟩ := mem_language_seq.mp h
    obtain ⟨o, ho, hstart, hwhole⟩ := ihFirst hu
    cases hcase : o.whole with
    | false =>
      refine ⟨o, List.mem_flatMap.mpr ⟨o, ho, ?_⟩, hstart.trans (List.prefix_append ..), ?_⟩
      · rw [hcase]
        exact List.mem_singleton_self o
      · rw [hcase]
        exact fun hfalse => by cases hfalse
    | true =>
      obtain rfl := hwhole hcase
      obtain ⟨o', ho', hstart', hwhole'⟩ := ihSecond hv
      refine ⟨⟨o.start ++ o'.start, o'.whole⟩, List.mem_flatMap.mpr ⟨o, ho, ?_⟩, ?_, fun h => ?_⟩
      · rw [hcase]
        exact List.mem_map.mpr ⟨o', ho', rfl⟩
      · exact (List.prefix_append_right_inj _).mpr hstart'
      · exact congrArg (o.start ++ ·) (hwhole' h)
  | alt first second ihFirst ihSecond =>
    rcases mem_language_alt.mp h with h | h
    · obtain ⟨o, ho, hopens⟩ := ihFirst h
      exact ⟨o, List.mem_append_left _ ho, hopens⟩
    · obtain ⟨o, ho, hopens⟩ := ihSecond h
      exact ⟨o, List.mem_append_right _ ho, hopens⟩
  | optional p ih =>
    rcases mem_language_optional.mp h with h | rfl
    · obtain ⟨o, ho, hopens⟩ := ih h
      exact ⟨o, List.mem_append_left _ ho, hopens⟩
    · exact ⟨⟨[], true⟩, List.mem_append_right _ (List.mem_singleton_self _), List.nil_prefix, fun _ => rfl⟩
  | named name p ih => exact ih h

/-- No text of the pattern begins with `start`, as the openings show. -/
def divergesFrom (p : Pattern) (start : Text) : Bool :=
  p.openings.all fun o => !o.start.isPrefixOf start && !start.isPrefixOf o.start

theorem notMem_of_divergesFrom {p : Pattern} {start : Text} (h : p.divergesFrom start = true) (rest : Text) :
    start ++ rest ∉ p.language := by
  intro hmem
  obtain ⟨o, ho, hopens, -⟩ := exists_opening hmem
  have hneither := List.all_eq_true.mp h o ho
  rw [Bool.and_eq_true, Bool.not_eq_true', Bool.not_eq_true'] at hneither
  -- two beginnings of one text
  rcases List.prefix_or_prefix_of_prefix hopens (List.prefix_append start rest) with hprefix | hprefix
  · exact absurd (List.isPrefixOf_iff_prefix.mpr hprefix) (by rw [hneither.1]; exact Bool.false_ne_true)
  · exact absurd (List.isPrefixOf_iff_prefix.mpr hprefix) (by rw [hneither.2]; exact Bool.false_ne_true)

/-! ## Counting -/

/-- Every text of the pattern holds `c` as often as this, or more often. -/
def leastCount (c : Char) : Pattern → Nat
  | one (.exactly d) => if d = c then 1 else 0
  | nothing | one _ | many .. | optional _ => 0
  | seq first second => first.leastCount c + second.leastCount c
  | alt first second => min (first.leastCount c) (second.leastCount c)
  | named _ p => p.leastCount c

theorem leastCount_le_count (c : Char) {p : Pattern} {t : Text} (h : t ∈ p.language) : p.leastCount c ≤ t.count c := by
  induction p generalizing t with
  | nothing | many | optional => exact Nat.zero_le _
  | one s =>
    cases s with
    | exactly d =>
      obtain rfl := mem_language_one_exactly.mp h
      rw [leastCount, List.count_singleton, beq_eq_decide]
      simp only [decide_eq_true_eq, le_refl]
    | _ => exact Nat.zero_le _
  | seq first second ihFirst ihSecond =>
    obtain ⟨u, hu, v, hv, rfl⟩ := mem_language_seq.mp h
    rw [leastCount, List.count_append]
    exact Nat.add_le_add (ihFirst hu) (ihSecond hv)
  | alt first second ihFirst ihSecond =>
    rcases mem_language_alt.mp h with h | h
    · exact (Nat.min_le_left ..).trans (ihFirst h)
    · exact (Nat.min_le_right ..).trans (ihSecond h)
  | named name p ih => exact ih h

/-! ## The last landmark -/

/-- A text up to the first place of a character is determined by the whole. -/
theorem eq_of_append_cons_eq {c : Char} {u u' v v' : Text} (hu : c ∉ u) (hu' : c ∉ u')
    (h : u ++ c :: v = u' ++ c :: v') : u = u' := by
  have hcut := congrArg (Text.cut c) h
  rw [Text.cut_append hu, Text.cut_append hu'] at hcut
  exact (List.cons.inj hcut).1

/-- A landmark cannot move back when nothing in front of it holds its last character. -/
theorem eq_nil_of_landmark {c : Char} {s d v w : Text} (hs : c ∉ s) (hd : c ∉ d)
    (h : s ++ c :: v = d ++ (s ++ c :: w)) : d = [] := by
  rw [← List.append_assoc] at h
  have hds : c ∉ d ++ s := by
    rw [List.mem_append, not_or]
    exact ⟨hd, hs⟩
  exact List.self_eq_append_left.mp (eq_of_append_cons_eq hs hds h)

/-- What follows begins with a landmark that ends in `c`, and has no `c` to spare: the first part, which prefers longer
texts, ends at the last of the landmarks. -/
theorem Matches.seq_last {p q : Pattern} {u v s : Text} {g h : List (Text × Text)} {c : Char} (hranks : p.Ranks Longer)
    (hp : p.Matches u g) (hq : q.Matches v h) (hs : c ∉ s) (hopenings : ∀ o ∈ q.openings, s ++ [c] <+: o.start)
    (hcount : v.count c ≤ q.leastCount c) : (Pattern.seq p q).Matches (u ++ v) (g ++ h) := by
  have hlandmark : ∀ v' ∈ q.language, ∃ w, v' = s ++ c :: w := by
    intro v' hv'
    obtain ⟨o, ho, hopens, -⟩ := exists_opening hv'
    obtain ⟨w, rfl⟩ := (hopenings o ho).trans hopens
    exact ⟨w, by rw [List.append_assoc, List.singleton_append]⟩
  refine seq_longest hranks hp hq fun d v' _ hv' heq => ?_
  have hd : c ∉ d := by
    have hleast := leastCount_le_count c hv'
    rw [heq, List.count_append] at hcount
    exact List.count_eq_zero.mp (by omega)
  obtain ⟨w, rfl⟩ := hlandmark v hq.mem_language
  obtain ⟨w', rfl⟩ := hlandmark v' hv'
  exact eq_nil_of_landmark hs hd heq

end Traceback.Pattern
