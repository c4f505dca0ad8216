import Mathlib.Data.List.Basic
import Traceback.Proofs.Pattern.Language

/-! # The order in which ways are tried

Of all ways to match the beginning of a text the preferred ones come first: the first alternative before the second,
an optional part before its absence, more repetitions before fewer or fewer before more. Earlier parts of the pattern
decide before later ones.

* `Prefers`: that one way is tried before another.
* `Lists`: that some ways are all those of a text and stand in that order; `exists_lists` finds them in `runs`.
* `Preferred`: the first way of a whole text; there is no other.
* `groups?_eq_some_iff`: the groups of a text are those of that way.
-/

namespace Traceback
set_option autoImplicit false

/-! ## Repeated characters -/

theorem CharSet.rests_eq (s : CharSet) (t : Text) :
    s.rests t = (List.range' 0 ((t.takeWhile s.mem).length + 1)).map (t.drop ·) := by
  induction t with
  | nil => rfl
  | cons c t ih =>
    cases hc : s.mem c with
    | false =>
      rw [rests, hc, List.takeWhile_cons_of_neg (by simp [hc])]
      rfl
    | true =>
      have hlater : (List.range' 1 ((t.takeWhile s.mem).length + 1)).map ((c :: t).drop ·) = s.rests t := by
        rw [ih, ← List.map_add_range' (a := 1) (s := 0), List.map_map]
        refine List.map_congr_left fun k _ => ?_
        rw [Function.comp_apply, Nat.add_comm 1 k, List.drop_succ_cons]
      rw [rests, hc, if_pos rfl, List.takeWhile_cons_of_pos hc, List.length_cons, List.range'_succ, List.map_cons, hlater]
      rfl

/-- Characters of a set can be repeated as often as they stand at the front. -/
theorem le_length_takeWhile_iff {p : Char → Bool} {t : Text} {k : Nat} (hk : k ≤ t.length) :
    k ≤ (t.takeWhile p).length ↔ ∀ c ∈ t.take k, p c = true := by
  induction t generalizing k with
  | nil => simpa using hk
  | cons c t ih =>
    cases k with
    | zero => simp
    | succ k =>
      rw [List.length_cons] at hk
      rw [List.take_succ_cons, List.forall_mem_cons, ← ih (by omega)]
      cases hc : p c with
      | false => simp [hc]
      | true => simp [hc]

namespace Pattern

/-! ## Preference -/

/-- In the pattern, the first way is tried before the second. -/
inductive Prefers : Pattern → Way → Way → Prop where
  | first {first second : Pattern} {x x' y y' : Way} (h : first.Prefers x x') :
      Prefers (seq first second) (.seq x y) (.seq x' y')
  | second {first second : Pattern} {x y y' : Way} (h : second.Prefers y y') :
      Prefers (seq first second) (.seq x y) (.seq x y')
  | left {first second : Pattern} {x x' : Way} (h : first.Prefers x x') :
      Prefers (alt first second) (.left x) (.left x')
  | right {first second : Pattern} {x x' : Way} (h : second.Prefers x x') :
      Prefers (alt first second) (.right x) (.right x')
  | leftFirst {first second : Pattern} {x y : Way} : Prefers (alt first second) (.left x) (.right y)
  | present {p : Pattern} {x x' : Way} (h : p.Prefers x x') : Prefers (optional p) (.present x) (.present x')
  | presentFirst {p : Pattern} {x : Way} : Prefers (optional p) (.present x) .absent
  | more {least : Nat} {s : CharSet} {t t' : Text} (h : t'.length < t.length) :
      Prefers (many true least s) (.many t) (.many t')
  | fewer {least : Nat} {s : CharSet} {t t' : Text} (h : t.length < t'.length) :
      Prefers (many false least s) (.many t) (.many t')
  | named {name : Text} {p : Pattern} {x x' : Way} (h : p.Prefers x x') :
      Prefers (named name p) (.named name x) (.named name x')

theorem Prefers.ne {p : Pattern} {x y : Way} (h : p.Prefers x y) : x ≠ y := by
  induction h with
  | first _ ih | second _ ih | left _ ih | right _ ih | present _ ih | named _ ih =>
    intro heq
    injection heq
    contradiction
  | leftFirst | presentFirst => exact fun heq => by cases heq
  | more h | fewer h =>
    intro heq
    injection heq with heq
    rw [heq] at h
    exact Nat.lt_irrefl _ h

theorem Prefers.asymm {p : Pattern} {x y : Way} (h : p.Prefers x y) : ¬ p.Prefers y x := by
  induction h with
  | first h ih =>
    rintro (h' | h')
    · exact ih h'
    · exact h.ne rfl
  | second h ih =>
    rintro (h' | h')
    · exact h'.ne rfl
    · exact ih h'
  | left _ ih | right _ ih | present _ ih | named _ ih =>
    intro h'
    cases h'
    exact ih ‹_›
  | leftFirst | presentFirst => exact fun h' => by cases h'
  | more h | fewer h =>
    intro h'
    cases h'
    omega

/-! ## All ways, in order -/

namespace Way

/-- The groups of a way to match the beginning of `t`, by what is left where they begin and end. -/
def captures : Way → (t : Text) → List Capture
  | nothing, _ | absent, _ | one _, _ | many _, _ => []
  | seq first second, t => first.captures t ++ second.captures (t.drop first.text.length)
  | left x, t | right x, t | present x, t => x.captures t
  | named name x, t => ⟨name, t, t.drop x.text.length⟩ :: x.captures t

/-- The same way as a run from the beginning of `t`. -/
def run (x : Way) (t : Text) : Run := ⟨x.captures t, t.drop x.text.length⟩

end Way

/-- `ways` are all ways to match a beginning of `t`, the preferred ones first. -/
structure Lists (p : Pattern) (t : Text) (ways : List Way) : Prop where
  runs_eq : p.runs t = ways.map (·.run t)
  mem_iff : ∀ x, x ∈ ways ↔ p.Fits x ∧ x.text <+: t
  ordered : ways.Pairwise p.Prefers

namespace Lists

variable {p q : Pattern} {t : Text} {ways ways' : List Way}

theorem nothing (t : Text) : Lists nothing t [.nothing] where
  runs_eq := rfl
  mem_iff x := by
    rw [List.mem_singleton]
    constructor
    · rintro rfl
      exact ⟨.nothing, List.nil_prefix⟩
    · rintro ⟨⟨⟩, -⟩
      rfl
  ordered := List.pairwise_singleton _ _

theorem one_nil (s : CharSet) : Lists (one s) [] [] where
  runs_eq := rfl
  mem_iff x := by
    refine iff_of_false List.not_mem_nil ?_
    rintro ⟨⟨_⟩, hbegins⟩
    exact absurd (List.prefix_nil.mp hbegins) (List.cons_ne_nil _ _)
  ordered := List.Pairwise.nil

theorem one_cons (s : CharSet) (c : Char) (t : Text) : Lists (one s) (c :: t) (if s.mem c then [.one c] else []) where
  runs_eq := by
    rw [runs]
    split <;> rfl
  mem_iff x := by
    constructor
    · intro hx
      split at hx
      next hc =>
        obtain rfl := List.mem_singleton.mp hx
        exact ⟨.one hc, t, rfl⟩
      next => cases hx
    · rintro ⟨hx, hbegins⟩
      cases hx with
      | one hd =>
        obtain rfl := (List.cons_prefix_cons.mp hbegins).1
        rw [if_pos hd]
        exact List.mem_singleton_self _
  ordered := by
    split
    · exact List.pairwise_singleton _ _
    · exact List.Pairwise.nil

/-- The second part begins where the first one ended. -/
theorem seq {rest : Text → List Way} (hp : Lists p t ways) (hq : ∀ t, Lists q t (rest t)) :
    Lists (seq p q) t (ways.flatMap fun x => (rest (t.drop x.text.length)).map (.seq x)) where
  runs_eq := by
    rw [runs, hp.runs_eq, List.flatMap_map, List.map_flatMap]
    refine List.flatMap_congr fun x hx => ?_
    rw [show (x.run t).rest = t.drop x.text.length from rfl, (hq _).runs_eq, List.map_map, List.map_map]
    refine List.map_congr_left fun y _ => ?_
    rw [Function.comp_apply, Function.comp_apply, Way.run, Way.run, Way.run, Way.text, List.length_append, List.drop_drop]
    rfl
  mem_iff z := by
    simp only [List.mem_flatMap, List.mem_map, hp.mem_iff, (hq _).mem_iff]
    constructor
    · rintro ⟨x, ⟨hx, first, rfl⟩, y, ⟨hy, hrest⟩, rfl⟩
      rw [List.drop_left] at hrest
      exact ⟨.seq hx hy, List.prefix_append_right_inj x.text |>.mpr hrest⟩
    · rintro ⟨hz, more, rfl⟩
      cases hz with
      | @seq _ _ x y hx hy =>
        refine ⟨x, ⟨hx, y.text ++ more, (List.append_assoc ..).symm⟩, y, ⟨hy, ?_⟩, rfl⟩
        rw [Way.text, List.append_assoc, List.drop_left]
        exact List.prefix_append ..
  ordered := by
    refine List.pairwise_flatMap.mpr ⟨fun x _ => ?_, hp.ordered.imp fun hprefers => ?_⟩
    · exact List.pairwise_map.mpr ((hq _).ordered.imp .second)
    · intro z hz z' hz'
      obtain ⟨y, -, rfl⟩ := List.mem_map.mp hz
      obtain ⟨y', -, rfl⟩ := List.mem_map.mp hz'
      exact .first hprefers

theorem alt (hp : Lists p t ways) (hq : Lists q t ways') : Lists (alt p q) t (ways.map .left ++ ways'.map .right) where
  runs_eq := by
    rw [runs, hp.runs_eq, hq.runs_eq, List.map_append, List.map_map, List.map_map]
    rfl
  mem_iff z := by
    simp only [List.mem_append, List.mem_map, hp.mem_iff, hq.mem_iff]
    constructor
    · rintro (⟨x, ⟨hx, hbegins⟩, rfl⟩ | ⟨x, ⟨hx, hbegins⟩, rfl⟩)
      · exact ⟨.left hx, hbegins⟩
      · exact ⟨.right hx, hbegins⟩
    · rintro ⟨hz, hbegins⟩
      cases hz with
      | left hx => exact Or.inl ⟨_, ⟨hx, hbegins⟩, rfl⟩
      | right hx => exact Or.inr ⟨_, ⟨hx, hbegins⟩, rfl⟩
  ordered := by
    refine List.pairwise_append.mpr ⟨List.pairwise_map.mpr (hp.ordered.imp .left),
      List.pairwise_map.mpr (hq.ordered.imp .right), fun x hx y hy => ?_⟩
    obtain ⟨x, -, rfl⟩ := List.mem_map.mp hx
    obtain ⟨y, -, rfl⟩ := List.mem_map.mp hy
    exact .leftFirst

theorem optional (hp : Lists p t ways) : Lists (optional p) t (ways.map .present ++ [.absent]) where
  runs_eq := by
    rw [runs, hp.runs_eq, List.map_append, List.map_map]
    rfl
  mem_iff z := by
    simp only [List.mem_append, List.mem_map, List.mem_singleton, hp.mem_iff]
    constructor
    · rintro (⟨x, ⟨hx, hbegins⟩, rfl⟩ | rfl)
      · exact ⟨.present hx, hbegins⟩
      · exact ⟨.absent, List.nil_prefix⟩
    · rintro ⟨hz, hbegins⟩
      cases hz with
      | present hx => exact Or.inl ⟨_, ⟨hx, hbegins⟩, rfl⟩
      | absent => exact Or.inr rfl
  ordered := by
    refine List.pairwise_append.mpr ⟨List.pairwise_map.mpr (hp.ordered.imp .present),
      List.pairwise_singleton _ _, fun x hx y hy => ?_⟩
    obtain ⟨x, -, rfl⟩ := List.mem_map.mp hx
    obtain rfl := List.mem_singleton.mp hy
    exact .presentFirst

theorem named (hp : Lists p t ways) (name : Text) : Lists (named name p) t (ways.map (.named name)) where
  runs_eq := by
    rw [runs, hp.runs_eq, List.map_map, List.map_map]
    rfl
  mem_iff z := by
    simp only [List.mem_map, hp.mem_iff]
    constructor
    · rintro ⟨x, ⟨hx, hbegins⟩, rfl⟩
      exact ⟨.named hx, hbegins⟩
    · rintro ⟨hz, hbegins⟩
      cases hz with
      | named hx => exact ⟨_, ⟨hx, hbegins⟩, rfl⟩
  ordered := List.pairwise_map.mpr (hp.ordered.imp .named)

end Lists

/-- How often characters may be repeated, of which `most` stand at the front, in the order in which it is tried. -/
def counts (greedy : Bool) (least most : Nat) : List Nat :=
  if greedy then (List.range' least (most + 1 - least)).reverse else List.range' least (most + 1 - least)

theorem mem_counts {greedy : Bool} {least most k : Nat} : k ∈ counts greedy least most ↔ least ≤ k ∧ k ≤ most := by
  have hrange : k ∈ List.range' least (most + 1 - least) ↔ least ≤ k ∧ k ≤ most := by
    rw [List.mem_range'_1]
    omega
  cases greedy with
  | false => exact hrange
  | true => exact List.mem_reverse.trans hrange

/-- What is left after each count, in order. -/
theorem map_drop_counts (s : CharSet) (greedy : Bool) (least : Nat) (t : Text) :
    (if greedy then ((s.rests t).drop least).reverse else (s.rests t).drop least) =
      (counts greedy least (t.takeWhile s.mem).length).map (t.drop ·) := by
  have hrests : (s.rests t).drop least =
      (List.range' least ((t.takeWhile s.mem).length + 1 - least)).map (t.drop ·) := by
    rw [s.rests_eq, ← List.map_drop, List.drop_range', Nat.zero_add, Nat.mul_one]
  cases greedy with
  | false => exact hrests
  | true => exact (congrArg List.reverse hrests).trans List.map_reverse.symm

theorem Lists.many (greedy : Bool) (least : Nat) (s : CharSet) (t : Text) : Lists (many greedy least s) t
    ((counts greedy least (t.takeWhile s.mem).length).map fun k => .many (t.take k)) where
  runs_eq := by
    rw [runs, map_drop_counts, List.map_map, List.map_map]
    refine List.map_congr_left fun k hk => ?_
    have hle : k ≤ t.length := (mem_counts.mp hk).2.trans (List.takeWhile_prefix _).length_le
    rw [Function.comp_apply, Function.comp_apply, Way.run, Way.text, List.length_take_of_le hle]
    rfl
  mem_iff z := by
    simp only [List.mem_map, mem_counts]
    constructor
    · rintro ⟨k, ⟨hleast, hmost⟩, rfl⟩
      have hle : k ≤ t.length := hmost.trans (List.takeWhile_prefix _).length_le
      refine ⟨.many ?_ ((le_length_takeWhile_iff hle).mp hmost), List.take_prefix ..⟩
      rwa [List.length_take_of_le hle]
    · rintro ⟨hz, hbegins⟩
      cases hz with
      | @many _ _ _ u hlength hu =>
        have htake : t.take u.length = u := (List.prefix_iff_eq_take.mp hbegins).symm
        have hall : ∀ c ∈ t.take u.length, s.mem c = true := by rwa [htake]
        exact ⟨u.length, ⟨hlength, (le_length_takeWhile_iff hbegins.length_le).mpr hall⟩, congrArg Way.many htake⟩
  ordered := by
    have hlengths : ∀ j k, j < k → k ≤ (t.takeWhile s.mem).length → (t.take j).length < (t.take k).length := by
      intro j k hjk hk
      have hle : k ≤ t.length := hk.trans (List.takeWhile_prefix _).length_le
      rwa [List.length_take_of_le hle, List.length_take_of_le (hjk.le.trans hle)]
    refine List.pairwise_map.mpr ?_
    have hrange : (List.range' least ((t.takeWhile s.mem).length + 1 - least)).Pairwise
        fun j k => (t.take j).length < (t.take k).length :=
      (List.pairwise_lt_range' 1).imp_of_mem fun _ hk hjk =>
        hlengths _ _ hjk (by have := List.mem_range'_1.mp hk; omega)
    cases greedy with
    | false => exact hrange.imp .fewer
    | true => exact List.pairwise_reverse.mpr (hrange.imp .more)

/-- **Every pattern tries all its ways on a text, in the order of preference.** -/
theorem exists_lists (p : Pattern) (t : Text) : ∃ ways, p.Lists t ways := by
  induction p generalizing t with
  | nothing => exact ⟨_, .nothing t⟩
  | one s =>
    cases t with
    | nil => exact ⟨_, .one_nil s⟩
    | cons c t => exact ⟨_, .one_cons s c t⟩
  | seq first second ihFirst ihSecond =>
    obtain ⟨ways, hfirst⟩ := ihFirst t
    choose rest hsecond using ihSecond
    exact ⟨_, .seq hfirst hsecond⟩
  | alt first second ihFirst ihSecond =>
    obtain ⟨ways, hfirst⟩ := ihFirst t
    obtain ⟨ways', hsecond⟩ := ihSecond t
    exact ⟨_, .alt hfirst hsecond⟩
  | optional p ih =>
    obtain ⟨ways, hp⟩ := ih t
    exact ⟨_, .optional hp⟩
  | many greedy least s => exact ⟨_, .many greedy least s t⟩
  | named name p ih =>
    obtain ⟨ways, hp⟩ := ih t
    exact ⟨_, .named hp name⟩

/-! ## The first way of a whole text -/

/-- The way in which the whole text has the form of the pattern that is tried before all others. -/
structure Preferred (p : Pattern) (t : Text) (x : Way) : Prop where
  fits : p.Fits x
  text_eq : x.text = t
  first : ∀ y, p.Fits y → y.text = t → y ≠ x → p.Prefers x y

theorem Preferred.unique {p : Pattern} {t : Text} {x y : Way} (hx : p.Preferred t x) (hy : p.Preferred t y) :
    x = y := by
  by_contra hne
  exact (hx.first y hy.fits hy.text_eq (Ne.symm hne)).asymm (hy.first x hx.fits hx.text_eq hne)

/-- The captures of a way hold the texts of its groups. -/
theorem Way.captures_groups {x : Way} {t : Text} (h : x.text <+: t) :
    (x.captures t).map (fun c => (c.name, c.text)) = x.groups := by
  induction x generalizing t with
  | nothing | one | absent | many => rfl
  | seq first second ihFirst ihSecond =>
    obtain ⟨more, rfl⟩ := h
    have hfirst := ihFirst (t := first.text ++ second.text ++ more) ⟨second.text ++ more, (List.append_assoc ..).symm⟩
    have hsecond := ihSecond (t := second.text ++ more) (List.prefix_append ..)
    rw [captures, groups, List.map_append, text, hfirst, List.append_assoc, List.drop_left, hsecond]
  | left _ ih | right _ ih | present _ ih => exact ih h
  | named name x ih =>
    have htext : (Capture.mk name t (t.drop x.text.length)).text = x.text := by
      have hlength : t.length - (t.length - x.text.length) = x.text.length := Nat.sub_sub_self h.length_le
      rw [Capture.text, List.length_drop, hlength]
      exact (List.prefix_iff_eq_take.mp h).symm
    rw [captures, groups, List.map_cons, ih h, htext]

theorem Way.isEmpty_rest_iff {x : Way} {t : Text} (h : x.text <+: t) :
    (x.run t).rest.isEmpty = true ↔ x.text = t := by
  obtain ⟨more, rfl⟩ := h
  rw [run, List.drop_left, List.isEmpty_iff]
  constructor
  · rintro rfl
    exact (List.append_nil _).symm
  · exact fun heq => List.append_right_eq_self.mp heq.symm

/-- What is found first in an ordered list comes before all others of its kind. -/
theorem rel_of_find?_eq_some {α : Type} {R : α → α → Prop} {p : α → Bool} {l : List α} {x y : α} (h : l.Pairwise R)
    (hx : l.find? p = some x) (hy : y ∈ l) (hp : p y = true) (hne : y ≠ x) : R x y := by
  obtain ⟨-, before, after, rfl, hbefore⟩ := List.find?_eq_some_iff_append.mp hx
  rcases List.mem_append.mp hy with hy | hy
  · exact absurd hp (by simpa using hbefore y hy)
  · have hafter := (List.pairwise_cons.mp (List.pairwise_append.mp h).2.1).1
    exact hafter y ((List.mem_cons.mp hy).resolve_left hne)

theorem Lists.preferred_of_find? {p : Pattern} {t : Text} {ways : List Way} {x : Way} (h : p.Lists t ways)
    (hx : ways.find? (fun x => (x.run t).rest.isEmpty) = some x) : p.Preferred t x := by
  obtain ⟨hfits, hbegins⟩ := (h.mem_iff x).mp (List.mem_of_find?_eq_some hx)
  have hempty := List.find?_some hx
  refine ⟨hfits, (Way.isEmpty_rest_iff hbegins).mp hempty, fun y hy htext hne => ?_⟩
  have hyprefix : y.text <+: t := ⟨[], by rw [List.append_nil, htext]⟩
  exact rel_of_find?_eq_some h.ordered hx ((h.mem_iff y).mpr ⟨hy, hyprefix⟩)
    ((Way.isEmpty_rest_iff hyprefix).mpr htext) hne

/-- A text of the language has a preferred way. -/
theorem Lists.exists_find? {p : Pattern} {t : Text} {ways : List Way} (h : p.Lists t ways) (ht : t ∈ p.language) :
    ∃ x, ways.find? (fun x => (x.run t).rest.isEmpty) = some x := by
  obtain ⟨x, hx, htext⟩ := mem_language_iff.mp ht
  have hbegins : x.text <+: t := ⟨[], by rw [List.append_nil, htext]⟩
  refine Option.isSome_iff_exists.mp (List.find?_isSome.mpr ⟨x, (h.mem_iff x).mpr ⟨hx, hbegins⟩, ?_⟩)
  exact (Way.isEmpty_rest_iff hbegins).mpr htext

/-- **The run found first is the preferred way of the whole text.** -/
theorem find?_runs_eq_some_iff {p : Pattern} {t : Text} {r : Run} :
    (p.runs t).find? (fun r => r.rest.isEmpty) = some r ↔ ∃ x, p.Preferred t x ∧ x.run t = r := by
  obtain ⟨ways, h⟩ := p.exists_lists t
  rw [h.runs_eq, List.find?_map, Option.map_eq_some_iff]
  constructor
  · rintro ⟨x, hx, rfl⟩
    exact ⟨x, h.preferred_of_find? hx, rfl⟩
  · rintro ⟨x, hx, rfl⟩
    obtain ⟨y, hy⟩ := h.exists_find? (mem_language_iff.mpr ⟨x, hx.fits, hx.text_eq⟩)
    obtain rfl := hx.unique (h.preferred_of_find? hy)
    exact ⟨x, hy, rfl⟩

theorem exists_preferred_iff {p : Pattern} {t : Text} : (∃ x, p.Preferred t x) ↔ t ∈ p.language := by
  constructor
  · rintro ⟨x, hx⟩
    exact mem_language_iff.mpr ⟨x, hx.fits, hx.text_eq⟩
  · intro ht
    obtain ⟨ways, h⟩ := p.exists_lists t
    obtain ⟨x, hx⟩ := h.exists_find? ht
    exact ⟨x, h.preferred_of_find? hx⟩

/-- **The groups of a text are those of its preferred way.** -/
theorem groups?_eq_some_iff {p : Pattern} {t : Text} {g : Groups} :
    p.groups? t = some g ↔ ∃ x, p.Preferred t x ∧ Groups.ofPairs x.groups = g := by
  have hgroups : ∀ x, p.Preferred t x →
      Groups.ofPairs ((x.run t).captures.map fun c => (c.name, c.text)) = Groups.ofPairs x.groups := by
    intro x hx
    rw [Way.run, Way.captures_groups ⟨[], by rw [List.append_nil, hx.text_eq]⟩]
  rw [groups?, Option.map_eq_some_iff]
  simp only [find?_runs_eq_some_iff]
  constructor
  · rintro ⟨r, ⟨x, hx, rfl⟩, rfl⟩
    exact ⟨x, hx, (hgroups x hx).symm⟩
  · rintro ⟨x, hx, rfl⟩
    exact ⟨x.run t, ⟨x, hx, rfl⟩, hgroups x hx⟩

theorem isSome_groups?_iff {p : Pattern} {t : Text} : (p.groups? t).isSome = true ↔ t ∈ p.language := by
  rw [Option.isSome_iff_exists, ← exists_preferred_iff]
  simp only [groups?_eq_some_iff]
  constructor
  · rintro ⟨g, x, hx, -⟩
    exact ⟨x, hx⟩
  · rintro ⟨x, hx⟩
    exact ⟨_, x, hx, rfl⟩

end Pattern
end Traceback
