import Mathlib.Data.List.Induction
import Mathlib.Data.List.Infix
import Traceback.Proofs.FileTree.Growth
import Traceback.Proofs.Path

/-! # Straight paths

A path that is written with names alone and meets no link leads to the place that its names spell. What is made on the
way to one such place is seen from another only if one of them lies below the other.

* `Path.spelled`: a path made of names, with its components and its steps.
* `FileTree.Straight`: that a path goes down to a place by names alone.
* `FileTree.Made`: that nothing was made but directories on the way to a place.
* `FileTree.Straight.made_makeWay`, `FileTree.Straight.place_of_room?`: making the way to a place, and going it.
* `FileTree.Straight.read_eq`: what is found at another place.
-/

namespace Traceback
set_option autoImplicit false

/-! ## Paths of names -/

namespace Path

variable {absolute : Bool} {names : List Text} {n : Text}

/-- These names with separators between them, behind the root or not. -/
def spelled (absolute : Bool) (names : List Text) : Text :=
  (if absolute then ['/'] else []) ++ Text.joined ['/'] names

/-- A text that stands for itself between two separators. -/
def IsName (n : Text) : Prop := n ≠ [] ∧ n ≠ ['.'] ∧ n ≠ ['.', '.'] ∧ '/' ∉ n

instance (n : Text) : Decidable (IsName n) := inferInstanceAs (Decidable (_ ∧ _))

/-- The components of the path of these names. -/
def parts (absolute : Bool) (names : List Text) : List Component :=
  (if absolute then [.root] else []) ++ names.map .name

theorem reverse_parts (absolute : Bool) (names : List Text) (n : Text) :
    (parts absolute (names ++ [n])).reverse = .name n :: (parts absolute names).reverse := by
  rw [parts, List.map_append, ← List.append_assoc]
  exact List.reverse_concat

theorem IsName.component? (h : IsName n) : component? n = some (.name n) := by
  rw [Path.component?, if_neg (not_or.mpr ⟨h.1, h.2.1⟩), if_neg h.2.2.1]

theorem IsName.step? (h : IsName n) : FileTree.step? n = some (.enter n) := by
  rw [FileTree.step?, if_neg h.1, if_neg h.2.1, if_neg h.2.2.1]

theorem joined_concat (names : List Text) (hne : names ≠ []) (n : Text) :
    Text.joined ['/'] (names ++ [n]) = Text.joined ['/'] names ++ '/' :: n := by
  rw [← Text.joined_cons_joined ['/'] hne [n]]
  exact List.append_assoc ..

theorem spelled_concat (hne : names ≠ []) (n : Text) :
    spelled absolute (names ++ [n]) = spelled absolute names ++ '/' :: n := by
  rw [spelled, joined_concat names hne, spelled, List.append_assoc]

theorem cut_spelled (hne : names ≠ []) (h : ∀ n ∈ names, IsName n) :
    Text.cut '/' (spelled absolute names) = (if absolute then [[]] else []) ++ names := by
  have hcut : Text.cut '/' (Text.joined ['/'] names) = names := Text.cut_joined hne fun n hn => (h n hn).2.2.2
  cases absolute with
  | false => exact hcut
  | true =>
    show Text.cut '/' ([] ++ '/' :: Text.joined ['/'] names) = [] :: names
    rw [Text.cut_append (List.not_mem_nil), hcut]

/-- The path ends in its last name. -/
theorem getLast?_spelled (hne : names ≠ []) (h : ∀ n ∈ names, IsName n) :
    (spelled absolute names).getLast? ≠ some '/' := by
  obtain ⟨init, last, rfl⟩ := (List.eq_nil_or_concat names).resolve_left hne
  obtain ⟨hlast, -, -, hsep⟩ := h last (by simp)
  intro hend
  have hmem : '/' ∈ last := by
    apply List.mem_of_getLast?
    rw [← hend]
    cases init with
    | nil => exact (List.getLast?_append_of_ne_nil _ hlast).symm
    | cons first init =>
      rw [List.concat_eq_append, spelled_concat (List.cons_ne_nil _ _),
        List.getLast?_append_of_ne_nil _ (List.cons_ne_nil _ _), List.getLast?_cons_of_ne_nil hlast]
  exact hsep hmem

theorem steps_spelled (hne : names ≠ []) (h : ∀ n ∈ names, IsName n) :
    FileTree.steps (spelled absolute names) = names.map .enter := by
  have hnames : names.filterMap FileTree.step? = names.map .enter := by
    rw [← List.filterMap_eq_map]
    exact List.filterMap_congr fun n hn => (h n hn).step?
  rw [FileTree.steps, if_neg (getLast?_spelled hne h), cut_spelled hne h, List.append_nil, List.filterMap_append, hnames]
  cases absolute <;> rfl

theorem isAbsolute_spelled (hne : names ≠ []) (h : ∀ n ∈ names, IsName n) :
    isAbsolute (spelled absolute names) = absolute := by
  cases absolute with
  | true => rfl
  | false =>
    cases names with
    | nil => exact absurd rfl hne
    | cons first names =>
      obtain ⟨hfirst, -, -, hsep⟩ := h first List.mem_cons_self
      obtain ⟨c, first, rfl⟩ := List.exists_cons_of_ne_nil hfirst
      have hc : c ≠ '/' := fun hc => hsep (hc ▸ List.mem_cons_self)
      have hhead : (spelled false ((c :: first) :: names)).head? = some c := by
        cases names <;> rfl
      rw [isAbsolute, hhead]
      exact beq_eq_false_iff_ne.mpr fun hsome => hc (Option.some.inj hsome)

theorem components_spelled (h : ∀ n ∈ names, IsName n) : components (spelled absolute names) = parts absolute names := by
  have hnames : names.filterMap component? = names.map .name := by
    rw [← List.filterMap_eq_map]
    exact List.filterMap_congr fun n hn => (h n hn).component?
  by_cases hne : names = []
  · subst hne
    cases absolute <;> rfl
  · unfold components
    rw [isAbsolute_spelled hne h, cut_spelled hne h]
    cases absolute with
    | true =>
      show Component.root :: names.filterMap component? = _
      rw [hnames]
      rfl
    | false =>
      obtain ⟨first, rest, rfl⟩ := List.exists_cons_of_ne_nil hne
      have hfirst : some first ≠ some ['.'] := fun hsome => (h first List.mem_cons_self).2.1 (Option.some.inj hsome)
      show (if some first = some ['.'] then _ else (first :: rest).filterMap component?) = _
      rw [if_neg hfirst, hnames]
      rfl

theorem descend_spelled (hne : names ≠ []) (h : ∀ n ∈ names, IsName n) {more : List Text}
    (hmore : ∀ n ∈ more, IsName n) :
    descend (spelled absolute names) (more.map .name) = spelled absolute (names ++ more) := by
  induction more generalizing names with
  | nil => rw [List.append_nil]; rfl
  | cons n more ih =>
    rw [List.forall_mem_cons] at hmore
    have hbelow : below (spelled absolute names) n = spelled absolute (names ++ [n]) := by
      rw [below, if_neg (getLast?_spelled hne h), spelled_concat hne]
    have hall : ∀ m ∈ names ++ [n], IsName m :=
      List.forall_mem_append.mpr ⟨h, List.forall_mem_singleton.mpr hmore.1⟩
    show descend (below (spelled absolute names) n) (more.map .name) = _
    rw [hbelow, ih (by simp) hall hmore.2, List.append_assoc]
    rfl

theorem ofComponents_parts (h : ∀ n ∈ names, IsName n) :
    ofComponents (parts absolute names) = spelled absolute names := by
  cases names with
  | nil => cases absolute <;> rfl
  | cons first names =>
    rw [List.forall_mem_cons] at h
    have hfirst : ∀ n ∈ [first], IsName n := List.forall_mem_singleton.mpr h.1
    have hdescend : descend (spelled absolute [first]) (names.map .name) = spelled absolute (first :: names) :=
      descend_spelled (List.cons_ne_nil _ _) hfirst h.2
    cases absolute with
    | true => exact hdescend
    | false => exact hdescend

end Path

namespace FileTree

variable {t t' t'' : FileTree} {base d p q : Place} {names : List Text}

/-! ## Ways without links -/

def Entry.isLink : Entry → Bool
  | .link _ => true
  | _ => false

/-- Nothing on the way from `base` along these names is a link. -/
def Unlinked (t : FileTree) (base : Place) (names : List Text) : Prop :=
  ∀ way, way <+: names → way ≠ [] → ∀ e ∈ t.entry? (base ++ way), ¬ Entry.isLink e

/-- Nothing lies further on the way along these names than a place where nothing lies. -/
def Closed (t : FileTree) (base : Place) (names : List Text) : Prop :=
  ∀ further, further <+: names → ∀ way, way <+: further → way ≠ [] → t.entry? (base ++ way) = none →
    t.entry? (base ++ further) = none

instance : Decidable (t.Unlinked base names) :=
  decidable_of_iff (∀ way ∈ names.inits, way ≠ [] → ∀ e ∈ t.entry? (base ++ way), ¬ Entry.isLink e) (by
    simp only [List.mem_inits, Unlinked])

instance : Decidable (t.Closed base names) :=
  decidable_of_iff (∀ further ∈ names.inits, ∀ way ∈ further.inits, way ≠ [] → t.entry? (base ++ way) = none →
    t.entry? (base ++ further) = none) (by simp only [List.mem_inits, Closed])

section Ways
variable {n : Text}

theorem prefix_cons {way : List Text} (h : way <+: names) : n :: way <+: n :: names := (List.prefix_cons_inj n).mpr h

theorem Unlinked.cons (h : t.Unlinked base (n :: names)) : t.Unlinked (base ++ [n]) names := by
  intro way hway _
  rw [List.append_assoc]
  exact h (n :: way) (prefix_cons hway) (List.cons_ne_nil _ _)

theorem Unlinked.head (h : t.Unlinked base (n :: names)) (target : Text) :
    t.entry? (base ++ [n]) ≠ some (.link target) :=
  fun hlink => h [n] (prefix_cons List.nil_prefix) (List.cons_ne_nil _ _) _ hlink rfl

theorem Closed.cons (h : t.Closed base (n :: names)) : t.Closed (base ++ [n]) names := by
  intro further hfurther way hway _ hnone
  rw [List.append_assoc] at hnone ⊢
  exact h (n :: further) (prefix_cons hfurther) (n :: way) (prefix_cons hway) (List.cons_ne_nil _ _) hnone

/-- Behind a missing name all is missing. -/
theorem Closed.entry?_eq_none (h : t.Closed base (n :: names)) (hnone : t.entry? (base ++ [n]) = none)
    {further : List Text} (hfurther : further <+: names) : t.entry? (base ++ [n] ++ further) = none := by
  rw [List.append_assoc]
  exact h (n :: further) (prefix_cons hfurther) [n] (prefix_cons List.nil_prefix) (List.cons_ne_nil _ _) hnone

end Ways

/-- Where a walk along names ends: at their end, or nowhere. -/
theorem walkFrom_names {follow : Bool} {links : Nat} {r : Reached} (h : t.Unlinked base names)
    (hwalk : t.walkFrom follow links base .directory (names.map .enter) = .ok r) :
    (∃ e, r = .entry (base ++ names) e) ∨ r = .free (base ++ names) ∨ ∃ way, r = .gap way := by
  induction names generalizing base with
  | nil =>
    rw [List.map_nil, walkFrom_nil] at hwalk
    cases hwalk
    exact Or.inl ⟨_, by rw [List.append_nil]⟩
  | cons n names ih =>
    have hnext := ih h.cons
    rw [List.append_assoc] at hnext
    rw [List.map_cons, walkFrom.eq_def] at hwalk
    dsimp only at hwalk
    rw [if_neg (by decide)] at hwalk
    split at hwalk
    · cases hwalk
    · split at hwalk
      next =>
        cases hwalk
        cases names with
        | nil => exact Or.inr (Or.inl rfl)
        | cons => exact Or.inr (Or.inr ⟨_, rfl⟩)
      next target hlink => exact absurd hlink (h.head target)
      next found _ hfound =>
        cases found with
        | directory => exact hnext hwalk
        | file content =>
          obtain hend := todo_of_walkFrom_file hwalk
          rw [List.map_eq_nil_iff] at hend
          subst hend
          rw [List.map_nil, walkFrom_nil] at hwalk
          cases hwalk
          exact Or.inl ⟨_, rfl⟩
        | link target => exact absurd hfound (h.head target)

/-! ## Making the way -/

/-- All that is new in `t'` are directories on the way to `d`. -/
structure Made (d : Place) (t t' : FileTree) : Prop where
  directory : t'.directory = t.directory
  entry : ∀ q, t'.entry? q = t.entry? q ∨ q <+: d ∧ t.entry? q = none ∧ t'.entry? q = some .directory

namespace Made

theorem refl (d : Place) (t : FileTree) : Made d t t := ⟨rfl, fun _ => Or.inl rfl⟩

theorem trans (h : Made d t t') (h' : Made d t' t'') : Made d t t'' where
  directory := h'.directory.trans h.directory
  entry q := by
    rcases h'.entry q with hlater | ⟨hq, hfree, hmade⟩
    · rw [hlater]
      exact h.entry q
    · rcases h.entry q with hsame | ⟨-, -, hdir⟩
      · exact Or.inr ⟨hq, hsame ▸ hfree, hmade⟩
      · rw [hfree] at hdir
        cases hdir

theorem mono (h : Made d t t') (hd : d <+: p) : Made p t t' where
  directory := h.directory
  entry q := (h.entry q).imp_right fun hmade => ⟨hmade.1.trans hd, hmade.2⟩

theorem put_directory (hd : t.entry? d = none) : Made d t (t.put d .directory) where
  directory := rfl
  entry q := by
    by_cases hq : q = d
    · subst hq
      refine Or.inr ⟨List.prefix_rfl, hd, entry?_put_self ?_ _⟩
      rintro rfl
      rw [entry?_nil] at hd
      cases hd
    · exact Or.inl (entry?_put_of_ne hq _)

theorem unlinked (h : Made d t t') (hlinks : t.Unlinked base names) : t'.Unlinked base names := by
  intro way hway hne e he
  rcases h.entry (base ++ way) with hsame | ⟨-, -, hmade⟩
  · exact hlinks way hway hne e (hsame ▸ he)
  · rw [hmade] at he
    cases he
    nofun

end Made

/-- Where a path of names begins. -/
def origin (t : FileTree) (absolute : Bool) : Place := if absolute then [] else t.directory

section Ways
variable {absolute : Bool}

theorem walkFrom_of_walk {follow : Bool} {r : Reached} (hne : names ≠ []) (hnames : ∀ n ∈ names, Path.IsName n)
    (h : t.walk follow (Path.spelled absolute names) = .ok r) :
    t.walkFrom follow 40 (t.origin absolute) .directory (names.map .enter) = .ok r := by
  have hwalk := (walk_eq_ok_iff.mp h).2
  rw [Path.isAbsolute_spelled hne hnames, Path.steps_spelled hne hnames] at hwalk
  exact hwalk

theorem made_makeDirectory (hne : names ≠ []) (hnames : ∀ n ∈ names, Path.IsName n)
    (hlinks : t.Unlinked (t.origin absolute) names) (h : t.makeDirectory (Path.spelled absolute names) = .ok t') :
    Made (t.origin absolute ++ names) t t' := by
  unfold makeDirectory at h
  split at h
  next => cases h
  next => cases h
  next place hwalk =>
    cases h
    have hfree := heldBy_of_walk hwalk
    rcases walkFrom_names hlinks (walkFrom_of_walk hne hnames hwalk) with ⟨e, hr⟩ | hr | ⟨way, hr⟩
    · cases hr
    · cases hr
      exact .put_directory hfree
    · cases hr
  next => cases h

theorem made_makeAll (hnames : ∀ n ∈ names, Path.IsName n) (hlinks : t.Unlinked (t.origin absolute) names) :
    Made (t.origin absolute ++ names) t (t.makeAll (Path.parts absolute names).reverse).1 := by
  induction names using List.reverseRecOn with
  | nil =>
    cases absolute with
    | false => exact .refl _ t
    | true => exact .refl _ t
  | append_singleton names n ih =>
    have habove : names <+: names ++ [n] := List.prefix_append _ _
    have hway : t.origin absolute ++ names <+: t.origin absolute ++ (names ++ [n]) :=
      (List.prefix_append_right_inj _).mpr habove
    have hrest := ih (fun m hm => hnames m (List.mem_append_left _ hm)) fun way hpre => hlinks way (hpre.trans habove)
    have hreverse := Path.reverse_parts absolute names n
    have hpath : Path.ofComponents (.name n :: (Path.parts absolute names).reverse).reverse =
        Path.spelled absolute (names ++ [n]) := by
      rw [← hreverse, List.reverse_reverse, Path.ofComponents_parts hnames]
    have hne : names ++ [n] ≠ [] := by simp
    rw [hreverse]
    unfold makeAll
    dsimp only
    rw [hpath]
    split
    next made hmade => exact made_makeDirectory hne hnames hlinks hmade
    next =>
      generalize t.makeAll (Path.parts absolute names).reverse = way at hrest ⊢
      obtain ⟨way, result⟩ := way
      have hway := hrest.mono hway
      cases result with
      | error f => exact hway
      | ok =>
        dsimp only
        split
        next made hmade =>
          have hbase : way.origin absolute = t.origin absolute := by rw [origin, origin, hrest.directory]
          rw [← hbase] at hlinks hway ⊢
          exact hway.trans (made_makeDirectory hne hnames (hway.unlinked hlinks) hmade)
        next => exact hway
    next => exact .refl _ t

theorem made_makeWay (hnames : ∀ n ∈ names, Path.IsName n) (hlinks : t.Unlinked (t.origin absolute) names) :
    Made (t.origin absolute ++ names) t (t.makeWay (Path.spelled absolute names)).1 := by
  rw [makeWay, Path.components_spelled hnames]
  exact made_makeAll hnames hlinks

end Ways

/-! ## Straight paths -/

/-- The path is written with these names, none of which is too long, and leads over no link; and nothing lies below a
place on its way where nothing lies. -/
structure Straight (t : FileTree) (path : Text) (absolute : Bool) (names : List Text) : Prop where
  path_eq : path = Path.spelled absolute names
  names_ne_nil : names ≠ []
  isName : ∀ n ∈ names, Path.IsName n
  short : ∀ n ∈ names, (Utf8.encode n).length ≤ 255
  unlinked : t.Unlinked (t.origin absolute) names
  closed : t.Closed (t.origin absolute) names

/-- All that is new in `t'` are directories on the way to `p`, and what lies at `p` itself. -/
structure Placed (p : Place) (t t' : FileTree) : Prop where
  directory : t'.directory = t.directory
  entry : ∀ q, q ≠ p →
    t'.entry? q = t.entry? q ∨ q <+: p ∧ t.entry? q = none ∧ t'.entry? q = some .directory

theorem Made.placed (h : Made p t t') : Placed p t t' := ⟨h.directory, fun q _ => h.entry q⟩

theorem Placed.put (h : Placed p t t') (e : Entry) : Placed p t (t'.put p e) where
  directory := h.directory
  entry q hq := by
    rw [entry?_put_of_ne hq]
    exact h.entry q hq

/-- What is read where a walk ends. -/
def contentOf : Except FileFault Reached → Except FileFault Bytes
  | .error f => .error f
  | .ok (.free _) | .ok (.gap _) => .error .notFound
  | .ok (.entry _ (.file content)) => .ok content
  | .ok (.entry _ _) => .error .isDirectory

theorem read_eq_contentOf (t : FileTree) (path : Text) : t.read path = contentOf (t.walk true path) := by
  rw [read]
  rcases t.walk true path with f | (⟨place, e⟩ | place | place)
  · rfl
  · cases e <;> rfl
  · rfl
  · rfl

section Reading
variable {n : Text} {links : Nat}

theorem walkFrom_enter_none {rest : List Step} (hn : (Utf8.encode n).length ≤ 255)
    (hnone : t.entry? (base ++ [n]) = none) :
    contentOf (t.walkFrom true links base .directory (.enter n :: rest)) = .error .notFound := by
  rw [walkFrom.eq_def]
  dsimp only
  rw [if_neg (by decide), if_neg (Nat.not_lt.mpr hn), hnone]
  cases rest <;> rfl

/-- Where nothing lay before, a walk along names comes to nothing, however far the directories go by now. -/
theorem contentOf_walkFrom_of_missing (h : Placed p t t') (hlen : ∀ n ∈ names, (Utf8.encode n).length ≤ 255)
    (hne : names ≠ []) (hfree : ∀ further, further <+: names → t.entry? (base ++ further) = none)
    (hbelow : ¬ p <+: base ++ names) (habove : ¬ base ++ names <+: p) :
    contentOf (t'.walkFrom true links base .directory (names.map .enter)) = .error .notFound := by
  induction names generalizing base with
  | nil => exact absurd rfl hne
  | cons n names ih =>
    rw [List.forall_mem_cons] at hlen
    have hall : base ++ n :: names = base ++ [n] ++ names := by rw [List.append_assoc]; rfl
    have hnp : base ++ [n] ≠ p := by
      rintro rfl
      exact hbelow (hall ▸ List.prefix_append _ _)
    rw [List.map_cons]
    -- The first name is missing still, or is a directory on the way to `p` by now, which forks further on.
    rcases h.entry _ hnp with hsame | ⟨hway, -, hmade⟩
    · exact walkFrom_enter_none hlen.1 (hsame.trans (hfree [n] (prefix_cons List.nil_prefix)))
    · have hnames : names ≠ [] := by
        rintro rfl
        exact habove hway
      rw [walkFrom_enter (Nat.not_lt.mpr hlen.1) hmade (by simp)]
      refine ih hlen.2 hnames (fun further hfurther => ?_) (hall ▸ hbelow) (hall ▸ habove)
      rw [List.append_assoc]
      exact hfree (n :: further) (prefix_cons hfurther)

/-- A walk along names that neither go on below `p` nor lead to a place above it finds what it found before. -/
theorem contentOf_walkFrom_of_placed (h : Placed p t t') (hlen : ∀ n ∈ names, (Utf8.encode n).length ≤ 255)
    (hne : names ≠ []) (hlinks : t.Unlinked base names) (hclosed : t.Closed base names)
    (hbelow : ¬ p <+: base ++ names) (habove : ¬ base ++ names <+: p) :
    contentOf (t'.walkFrom true links base .directory (names.map .enter)) =
      contentOf (t.walkFrom true links base .directory (names.map .enter)) := by
  induction names generalizing base with
  | nil => exact absurd rfl hne
  | cons n names ih =>
    rw [List.forall_mem_cons] at hlen
    have hall : base ++ n :: names = base ++ [n] ++ names := by rw [List.append_assoc]; rfl
    have hnp : base ++ [n] ≠ p := by
      rintro rfl
      exact hbelow (hall ▸ List.prefix_append _ _)
    rw [List.map_cons]
    cases hfound : t.entry? (base ++ [n]) with
    | none =>
      rw [walkFrom_enter_none hlen.1 hfound]
      rcases h.entry _ hnp with hsame | ⟨hway, -, hmade⟩
      · exact walkFrom_enter_none hlen.1 (hsame.trans hfound)
      · have hnames : names ≠ [] := by
          rintro rfl
          exact habove hway
        rw [walkFrom_enter (Nat.not_lt.mpr hlen.1) hmade (by simp)]
        exact contentOf_walkFrom_of_missing h hlen.2 hnames (fun _ => hclosed.entry?_eq_none hfound) (hall ▸ hbelow)
          (hall ▸ habove)
    | some e =>
      have hlink : ∀ target, e ≠ .link target := by
        rintro target rfl
        exact hlinks.head target hfound
      have hsame : t'.entry? (base ++ [n]) = some e := by
        rcases h.entry _ hnp with hsame | ⟨-, hnone, -⟩
        · rw [hsame, hfound]
        · rw [hfound] at hnone
          cases hnone
      rw [walkFrom_enter (Nat.not_lt.mpr hlen.1) hsame hlink, walkFrom_enter (Nat.not_lt.mpr hlen.1) hfound hlink]
      cases names with
      | nil => rw [List.map_nil, walkFrom_nil, walkFrom_nil]
      | cons m names =>
        cases e with
        | link target => exact absurd rfl (hlink target)
        | file content => rw [List.map_cons, walkFrom_file, walkFrom_file]
        | directory =>
          exact ih hlen.2 (List.cons_ne_nil _ _) hlinks.cons hclosed.cons (hall ▸ hbelow) (hall ▸ habove)

end Reading

namespace Straight

variable {path : Text} {absolute : Bool}

/-- The directory that the path leads into is the way to its place. -/
theorem made_parent (h : t.Straight path absolute names) :
    Made (t.origin absolute ++ names) t (t.makeWay ((Path.parent? path).getD [])).1 := by
  obtain ⟨init, n, hinit⟩ := (List.eq_nil_or_concat names).resolve_left h.names_ne_nil
  rw [List.concat_eq_append] at hinit
  subst hinit
  have habove : init <+: init ++ [n] := List.prefix_append _ _
  have hnames : ∀ m ∈ init, Path.IsName m := fun m hm => h.isName m (List.mem_append_left _ hm)
  have hparent : Path.parent? path = some (Path.spelled absolute init) := by
    rw [Path.parent?, h.path_eq, Path.components_spelled h.isName, Path.reverse_parts]
    dsimp only
    rw [List.reverse_reverse, Path.ofComponents_parts hnames]
  rw [hparent]
  exact (made_makeWay hnames fun way hpre => h.unlinked way (hpre.trans habove)).mono
    ((List.prefix_append_right_inj _).mpr habove)

/-- A file that is written at the path lies at its place, also when directories were made on the way before. -/
theorem place_of_room? {r : Reached} (h : t.Straight path absolute names) (hmade : Made (t.origin absolute ++ names) t t')
    (hwalk : t'.walk true path = .ok r) (hroom : r.room? = some p) : p = t.origin absolute ++ names := by
  have horigin : t'.origin absolute = t.origin absolute := by rw [origin, origin, hmade.directory]
  rw [h.path_eq] at hwalk
  have hwalk := walkFrom_of_walk h.names_ne_nil h.isName hwalk
  rw [horigin] at hwalk
  rcases walkFrom_names (hmade.unlinked h.unlinked) hwalk with ⟨e, rfl⟩ | rfl | ⟨way, rfl⟩
  · cases e with
    | file content =>
      cases hroom
      rfl
    | directory => cases hroom
    | link target => cases hroom
  · cases hroom
    rfl
  · cases hroom

/-- What is new on the way to `p` is not seen from a path to a place that lies neither above `p` nor below. -/
theorem read_eq (h : t.Straight path absolute names) (hplaced : Placed p t t')
    (hbelow : ¬ p <+: t.origin absolute ++ names) (habove : ¬ t.origin absolute ++ names <+: p) :
    t'.read path = t.read path := by
  have hwalks : contentOf (t'.walkFrom true 40 (t.origin absolute) .directory (names.map .enter)) =
      contentOf (t.walkFrom true 40 (t.origin absolute) .directory (names.map .enter)) :=
    contentOf_walkFrom_of_placed hplaced h.short h.names_ne_nil h.unlinked h.closed hbelow habove
  rw [read_eq_contentOf, read_eq_contentOf, h.path_eq]
  unfold walk
  rw [hplaced.directory, Path.isAbsolute_spelled h.names_ne_nil h.isName, Path.steps_spelled h.names_ne_nil h.isName]
  split
  · rfl
  · split
    · rfl
    · split
      · rfl
      · exact hwalks

end Straight
end FileTree
end Traceback
