import Traceback.Proofs.Pattern.Preference

/-! # Matching part by part

How the preferred way of a whole text is put together from the preferred ways of its parts.

* `Matches`: that a whole text has the form of a pattern, with the groups of the preferred way.
* `Ranks`: that ways of a part are preferred as a relation of their texts says: the longer or the shorter ones.
* `Matches.seq`: a text may be divided where the first part cannot do better.
-/

namespace Traceback.Pattern
set_option autoImplicit false

/-- The whole text has the form of the pattern; the groups are those of the preferred way, in the order of the
pattern. -/
def Matches (p : Pattern) (t : Text) (groups : List (Text × Text)) : Prop := ∃ x, p.Preferred t x ∧ x.groups = groups

/-! ## Texts of composed patterns -/

theorem mem_language_seq {p q : Pattern} {t : Text} :
    t ∈ (seq p q).language ↔ ∃ u ∈ p.language, ∃ v ∈ q.language, u ++ v = t :=
  Language.mem_mul

theorem mem_language_alt {p q : Pattern} {t : Text} : t ∈ (alt p q).language ↔ t ∈ p.language ∨ t ∈ q.language :=
  Iff.rfl

theorem mem_language_optional {p : Pattern} {t : Text} : t ∈ (optional p).language ↔ t ∈ p.language ∨ t = [] :=
  or_congr_right (Language.mem_one t)

theorem mem_language_many {greedy : Bool} {least : Nat} {s : CharSet} {t : Text} :
    t ∈ (many greedy least s).language ↔ least ≤ t.length ∧ ∀ c ∈ t, s.mem c = true :=
  Iff.rfl

/-- Any characters but line feeds. -/
theorem mem_language_any {greedy : Bool} {least : Nat} {t : Text} :
    t ∈ (many greedy least .any).language ↔ least ≤ t.length ∧ '\n' ∉ t := by
  refine and_congr_right fun _ => ⟨fun h hmem => ?_, fun h c hmem => ?_⟩
  · exact absurd (h _ hmem) (by decide)
  · exact bne_iff_ne.mpr fun heq => h (heq ▸ hmem)

/-- Any characters but those of a list. -/
theorem mem_language_noneOf {greedy : Bool} {cs t : Text} :
    t ∈ (many greedy 0 (.noneOf cs)).language ↔ ∀ c ∈ cs, c ∉ t := by
  rw [mem_language_many, and_iff_right (Nat.zero_le _)]
  constructor
  · intro h c hc hmem
    have hnone := h c hmem
    rw [CharSet.mem, Bool.not_eq_true', List.contains_eq_mem, decide_eq_false_iff_not] at hnone
    exact hnone hc
  · intro h c hmem
    rw [CharSet.mem, Bool.not_eq_true', List.contains_eq_mem, decide_eq_false_iff_not]
    exact fun hc => h c hc hmem

theorem mem_language_group {name : String} {p : Pattern} {t : Text} : t ∈ (group name p).language ↔ t ∈ p.language :=
  Iff.rfl

theorem mem_language_all_cons {p q : Pattern} {ps : List Pattern} {t : Text} :
    t ∈ (all (p :: q :: ps)).language ↔ ∃ u ∈ p.language, ∃ v ∈ (all (q :: ps)).language, u ++ v = t :=
  Language.mem_mul

theorem mem_language_one_exactly {c : Char} {t : Text} : t ∈ (one (.exactly c)).language ↔ t = [c] := by
  constructor
  · rintro ⟨d, hd, rfl⟩
    rw [eq_of_beq hd]
  · rintro rfl
    exact ⟨c, beq_self_eq_true c, rfl⟩

theorem mem_language_literal {s : String} {t : Text} : t ∈ (literal s).language ↔ t = s.toList := by
  rw [literal]
  generalize s.toList = l
  induction l generalizing t with
  | nil => exact Language.mem_one t
  | cons c l ih =>
    cases l with
    | nil => exact mem_language_one_exactly
    | cons d l =>
      rw [List.map_cons, List.map_cons, mem_language_all_cons]
      simp only [mem_language_one_exactly]
      constructor
      · rintro ⟨u, rfl, v, hv, rfl⟩
        rw [ih.mp hv]
        rfl
      · rintro rfl
        exact ⟨[c], rfl, d :: l, ih.mpr rfl, rfl⟩

theorem names_literal (s : String) : (literal s).names = [] := by
  rw [literal]
  induction s.toList with
  | nil => rfl
  | cons c l ih =>
    cases l with
    | nil => rfl
    | cons d l => exact ih

/-! ## Which ways come first -/

/-- Of two ways the pattern prefers the one whose text is related to that of the other. -/
def Ranks (p : Pattern) (better : Text → Text → Prop) : Prop :=
  ∀ x y, p.Fits x → p.Fits y → better x.text y.text → p.Prefers x y

def Longer (t u : Text) : Prop := u.length < t.length

def Shorter (t u : Text) : Prop := t.length < u.length

theorem ranks_greedy (least : Nat) (s : CharSet) : (many true least s).Ranks Longer := by
  intro x y hx hy h
  cases hx
  cases hy
  exact .more h

theorem ranks_lazy (least : Nat) (s : CharSet) : (many false least s).Ranks Shorter := by
  intro x y hx hy h
  cases hx
  cases hy
  exact .fewer h

theorem Ranks.group {p : Pattern} {better : Text → Text → Prop} (h : p.Ranks better) (name : String) :
    (group name p).Ranks better := by
  intro x y hx hy hbetter
  cases hx with
  | named hx =>
    cases hy with
    | named hy => exact .named (h _ _ hx hy hbetter)

/-! ## Parts -/

namespace Matches

variable {p q : Pattern} {t u v : Text} {g h : List (Text × Text)}

theorem mem_language (hp : p.Matches t g) : t ∈ p.language := by
  obtain ⟨x, hx, -⟩ := hp
  exact exists_preferred_iff.mp ⟨x, hx⟩

/-- The groups that a pattern without groups has for its texts. -/
theorem of_names_nil (hnames : p.names = []) (ht : t ∈ p.language) : p.Matches t [] := by
  obtain ⟨x, hx⟩ := exists_preferred_iff.mpr ht
  refine ⟨x, hx, ?_⟩
  have hgroups := names_groups_sublist hx.fits
  rw [hnames] at hgroups
  exact List.map_eq_nil_iff.mp (List.sublist_nil.mp hgroups)

theorem literal (s : String) : (literal s).Matches s.toList [] :=
  of_names_nil (names_literal s) (mem_language_literal.mpr rfl)

theorem any {greedy : Bool} {least : Nat} (hleast : least ≤ t.length) (ht : '\n' ∉ t) :
    (many greedy least .any).Matches t [] :=
  of_names_nil rfl (mem_language_any.mpr ⟨hleast, ht⟩)

theorem group (hp : p.Matches t g) (name : String) : (group name p).Matches t ((name.toList, t) :: g) := by
  obtain ⟨x, hx, rfl⟩ := hp
  refine ⟨.named name.toList x, ⟨.named hx.fits, hx.text_eq, ?_⟩, ?_⟩
  · intro y hy htext hne
    cases hy with
    | named hy => exact .named (hx.first _ hy htext fun heq => hne (congrArg _ heq))
  · rw [Way.groups, hx.text_eq]

theorem present (hp : p.Matches t g) : (optional p).Matches t g := by
  obtain ⟨x, hx, rfl⟩ := hp
  refine ⟨.present x, ⟨.present hx.fits, hx.text_eq, ?_⟩, rfl⟩
  intro y hy htext hne
  cases hy with
  | present hy => exact .present (hx.first _ hy htext fun heq => hne (congrArg _ heq))
  | absent => exact .presentFirst

theorem absent (hp : [] ∉ p.language) : (optional p).Matches [] [] := by
  refine ⟨.absent, ⟨.absent, rfl, ?_⟩, rfl⟩
  intro y hy htext hne
  cases hy with
  | present hy => exact absurd (mem_language_iff.mpr ⟨_, hy, htext⟩) hp
  | absent => exact absurd rfl hne

theorem left (hp : p.Matches t g) : (alt p q).Matches t g := by
  obtain ⟨x, hx, rfl⟩ := hp
  refine ⟨.left x, ⟨.left hx.fits, hx.text_eq, ?_⟩, rfl⟩
  intro y hy htext hne
  cases hy with
  | left hy => exact .left (hx.first _ hy htext fun heq => hne (congrArg _ heq))
  | right => exact .leftFirst

theorem right (hp : t ∉ p.language) (hq : q.Matches t g) : (alt p q).Matches t g := by
  obtain ⟨x, hx, rfl⟩ := hq
  refine ⟨.right x, ⟨.right hx.fits, hx.text_eq, ?_⟩, rfl⟩
  intro y hy htext hne
  cases hy with
  | left hy => exact absurd (mem_language_iff.mpr ⟨_, hy, htext⟩) hp
  | right hy => exact .right (hx.first _ hy htext fun heq => hne (congrArg _ heq))

/-! ## Two parts -/

/-- The text is divided between the parts where every other place is worse for the first part. -/
theorem seq {better : Text → Text → Prop} (hranks : p.Ranks better) (hp : p.Matches u g) (hq : q.Matches v h)
    (hplace : ∀ u' v', u' ∈ p.language → v' ∈ q.language → u' ++ v' = u ++ v → u' = u ∨ better u u') :
    (seq p q).Matches (u ++ v) (g ++ h) := by
  obtain ⟨x, hx, rfl⟩ := hp
  obtain ⟨y, hy, rfl⟩ := hq
  refine ⟨.seq x y, ⟨.seq hx.fits hy.fits, ?_, ?_⟩, rfl⟩
  · rw [Way.text, hx.text_eq, hy.text_eq]
  · intro z hz htext hne
    cases hz with
    | @seq _ _ x' y' hx' hy' =>
      rw [Way.text] at htext
      rcases hplace x'.text y'.text (mem_language_of_fits hx') (mem_language_of_fits hy') htext with heq | hbetter
      · by_cases hsame : x' = x
        · -- the second part decides
          subst hsame
          rw [heq] at htext
          exact .second (hy.first _ hy' (List.append_cancel_left htext) fun heq => hne (congrArg _ heq))
        · exact .first (hx.first _ hx' heq hsame)
      · rw [← hx.text_eq] at hbetter
        exact .first (hranks _ _ hx.fits hx' hbetter)

/-- There is one place only. -/
theorem seq_only (hp : p.Matches u g) (hq : q.Matches v h)
    (hplace : ∀ u' v', u' ∈ p.language → v' ∈ q.language → u' ++ v' = u ++ v → u' = u) :
    (Pattern.seq p q).Matches (u ++ v) (g ++ h) := by
  have hranks : p.Ranks fun _ _ => False := fun _ _ _ _ hfalse => hfalse.elim
  exact seq hranks hp hq fun u' v' hu hv heq => Or.inl (hplace u' v' hu hv heq)

theorem literal_seq (s : String) (hq : q.Matches v h) : (Pattern.seq (Pattern.literal s) q).Matches (s.toList ++ v) h :=
  seq_only (literal s) hq fun _ _ hu _ _ => mem_language_literal.mp hu

/-- A part that prefers longer texts ends at the last place where the rest of the text has the form of what follows. -/
theorem seq_longest (hranks : p.Ranks Longer) (hp : p.Matches u g) (hq : q.Matches v h)
    (hlast : ∀ d v', u ++ d ∈ p.language → v' ∈ q.language → v = d ++ v' → d = []) :
    (Pattern.seq p q).Matches (u ++ v) (g ++ h) := by
  refine seq hranks hp hq fun u' v' hu hv heq => ?_
  rcases List.append_eq_append_iff.mp heq with ⟨d, rfl, -⟩ | ⟨d, rfl, rfl⟩
  · cases d with
    | nil => exact Or.inl (List.append_nil u').symm
    | cons c d => exact Or.inr (by simp [Longer])
  · rw [hlast d v' hu hv rfl, List.append_nil]
    exact Or.inl rfl

/-- A part that prefers shorter texts ends at the first such place. -/
theorem seq_shortest (hranks : p.Ranks Shorter) (hp : p.Matches u g) (hq : q.Matches v h)
    (hfirst : ∀ u' d, u = u' ++ d → d ++ v ∈ q.language → d = []) : (Pattern.seq p q).Matches (u ++ v) (g ++ h) := by
  refine seq hranks hp hq fun u' v' _ hv heq => ?_
  rcases List.append_eq_append_iff.mp heq with ⟨d, rfl, rfl⟩ | ⟨d, rfl, -⟩
  · rw [hfirst u' d rfl hv, List.append_nil]
    exact Or.inl rfl
  · cases d with
    | nil => exact Or.inl (List.append_nil u)
    | cons c d => exact Or.inr (by simp [Shorter])

/-- A part that prefers longer texts goes on to a character that it cannot hold. -/
theorem seq_upTo {c : Char} (hranks : p.Ranks Longer) (hp : p.Matches u g) (hq : q.Matches v h) (hv : v.head? = some c)
    (hc : ∀ t ∈ p.language, c ∉ t) : (Pattern.seq p q).Matches (u ++ v) (g ++ h) := by
  obtain ⟨v, rfl⟩ := List.head?_eq_some_iff.mp hv
  refine seq_longest hranks hp hq fun d v' hd _ heq => ?_
  cases d with
  | nil => rfl
  | cons e d =>
    obtain ⟨rfl, -⟩ := List.cons.inj heq
    exact absurd (List.mem_append_right u List.mem_cons_self) (hc _ hd)

end Matches
end Traceback.Pattern
