import Mathlib.Algebra.GroupWithZero.Nat
import Traceback.Proofs.Json.Reading

/-! # Values as they are written

What is expected of a reader is said by the texts for the values of its type. Some of those texts lack members that are
required: such a text has to be refused, however deep the gap lies.

* `Writing`: the texts for the values of a type, `Writing.text`, `Writing.option`, `Writing.list` among them.
* `Follows`: a reader takes the texts that are complete for their values and refuses the others.
* `Remains`: what is left of a list or an object.
* `follows_text`, `follows_option`, `follows_list`: the readers of values and lists.
-/

namespace Traceback.Json
set_option autoImplicit false

open Read

variable {α : Type}

/-! ## Texts for values -/

/-- The texts for the values of a type, by the number of required members that are left out. -/
abbrev Writing (α : Type) := Nat → α → Text → Prop

/-- An item of a list and its text. -/
structure Item (α : Type) where
  gaps : Nat
  value : α
  text : Text

namespace Writing

def text : Writing Text := fun gaps t s => gaps = 0 ∧ WritesText t s

def word64 : Writing UInt64 := fun gaps n s => gaps = 0 ∧ s = Text.ofNat n.toNat

def bool : Writing Bool := fun gaps b s => gaps = 0 ∧ s = if b then "true".toList else "false".toList

inductive option (w : Writing α) : Writing (Option α) where
  | null : option w 0 none "null".toList
  | value {gaps : Nat} {a : α} {t : Text} (h : w gaps a t) : option w gaps (some a) t

/-- Lists whose brackets are the outermost of at most `levels`. -/
inductive list (levels : Nat) (w : Writing α) : Writing (List α) where
  | brackets {items : List (Item α)} {body : Text} (hlevels : 0 < levels)
      (hitems : ∀ x ∈ items, w x.gaps x.value x.text) (hbody : Body (items.map Item.text) body) :
    list levels w (items.map Item.gaps).sum (items.map Item.value) ('[' :: (body ++ [']']))

end Writing

theorem exists_text (t : Text) : ∃ s, Writing.text 0 t s := by
  obtain ⟨s, hs⟩ := exists_writesText t
  exact ⟨s, rfl, hs⟩

theorem exists_word64 (n : UInt64) : ∃ s, Writing.word64 0 n s := ⟨_, rfl, rfl⟩

theorem exists_option {w : Writing α} {o : Option α} (h : ∀ a ∈ o, ∃ t, w 0 a t) : ∃ t, Writing.option w 0 o t := by
  cases o with
  | none => exact ⟨_, .null⟩
  | some a =>
    obtain ⟨t, ht⟩ := h a rfl
    exact ⟨t, .value ht⟩

theorem exists_list {levels : Nat} (hlevels : 0 < levels) {w : Writing α} {l : List α} (h : ∀ a ∈ l, ∃ t, w 0 a t) :
    ∃ t, Writing.list levels w 0 l t := by
  have hitems : ∃ items : List (Item α), items.map Item.value = l ∧ (items.map Item.gaps).sum = 0 ∧
      ∀ x ∈ items, w x.gaps x.value x.text := by
    induction l with
    | nil => exact ⟨[], rfl, rfl, List.forall_mem_nil _⟩
    | cons a l ih =>
      obtain ⟨ha, hl⟩ := List.forall_mem_cons.mp h
      obtain ⟨t, ht⟩ := ha
      obtain ⟨items, rfl, hgaps, hw⟩ := ih hl
      exact ⟨⟨0, a, t⟩ :: items, rfl, by simpa using hgaps, List.forall_mem_cons.mpr ⟨ht, hw⟩⟩
  obtain ⟨items, rfl, hgaps, hw⟩ := hitems
  obtain ⟨body, hbody⟩ := exists_body (items.map Item.text)
  have hlist := Writing.list.brackets hlevels hw hbody
  rw [hgaps] at hlist
  exact ⟨_, hlist⟩

/-- The reader takes every complete text for its value and refuses the others. -/
structure Follows (r : Read α) (w : Writing α) : Prop where
  reads : ∀ {a : α} {t : Text}, w 0 a t → Reads r t a
  refuses : ∀ {gaps : Nat} {a : α} {t : Text}, w gaps a t → gaps ≠ 0 → Refuses r t

/-- The texts are those of values that are no words. -/
def Opens (w : Writing α) : Prop := ∀ {gaps : Nat} {a : α} {t : Text}, w gaps a t → Opened t

/-! ## Scalars -/

theorem follows_text : Follows Read.text Writing.text where
  reads h := reads_text h.2
  refuses h hgaps := absurd h.1 hgaps

theorem opens_text : Opens Writing.text := by
  rintro gaps t s ⟨-, ⟨_⟩⟩
  exact ⟨'"', _, rfl, .inl (by decide)⟩

theorem follows_word64 : Follows Read.word64 Writing.word64 where
  reads h := by
    obtain ⟨-, rfl⟩ := h
    exact reads_word64 _
  refuses h hgaps := absurd h.1 hgaps

theorem opens_word64 : Opens Writing.word64 := by
  rintro gaps n s ⟨-, rfl⟩
  obtain ⟨⟨hne, hdigits⟩, -⟩ := isWhole_ofNat n.toNat
  obtain ⟨c, ds, hds⟩ := List.exists_cons_of_ne_nil hne
  exact ⟨c, ds, hds, .inr (hdigits c (by rw [hds]; exact List.mem_cons_self ..))⟩

theorem follows_bool : Follows Read.bool Writing.bool where
  reads h := by
    obtain ⟨-, rfl⟩ := h
    exact reads_bool _
  refuses h hgaps := absurd h.1 hgaps

theorem follows_option {r : Read α} {w : Writing α} (h : Follows r w) (hopens : Opens w) :
    Follows (Read.option r) (Writing.option w) where
  reads hw := by
    cases hw with
    | null => exact reads_none
    | value ha => exact reads_some (hopens ha) (h.reads ha)
  refuses hw hgaps := by
    cases hw with
    | null => exact absurd rfl hgaps
    | value ha => exact refuses_some (hopens ha) (h.refuses ha hgaps)

/-! ## What is left of a list or an object -/

/-- The items that remain in front of the closing bracket; the first of all has no comma in front of it. -/
inductive Remains : (first : Bool) → List Text → Text → Prop where
  | all {items : List Text} {t : Text} (h : Body items t) : Remains true items t
  | done {space : Text} (h : Spaces space) : Remains false [] space
  | more {items : List Text} {after t : Text} (hafter : Spaces after) (h : Row items t) :
    Remains false items (after ++ ',' :: t)

namespace Remains

variable {first : Bool} {item : Text} {items : List Text} {t : Text}

theorem spaces (h : Remains first [] t) : Spaces t := by
  cases h with
  | all h =>
    cases h with
    | empty h => exact h
    | row h => cases h
  | done h => exact h
  | more _ h => cases h

/-- The next item stands behind white space, and behind a comma unless it is the first. -/
theorem next (h : Remains first (item :: items) t) :
    ∃ before tail, Spaces before ∧ Remains false items tail ∧
      if first then t = before ++ (item ++ tail)
      else ∃ after, Spaces after ∧ t = after ++ ',' :: (before ++ (item ++ tail)) := by
  have hrow : ∀ {t : Text}, Row (item :: items) t →
      ∃ before tail, Spaces before ∧ Remains false items tail ∧ t = before ++ (item ++ tail) := by
    rintro t ⟨hbefore, hafter⟩
    · exact ⟨_, _, hbefore, .done hafter, rfl⟩
    case next hbefore hafter h => exact ⟨_, _, hbefore, .more hafter h, rfl⟩
  cases h with
  | all h =>
    cases h with
    | row h => exact hrow h
  | more hafter h =>
    obtain ⟨before, tail, hbefore, htail, rfl⟩ := hrow h
    exact ⟨before, tail, hbefore, htail, _, hafter, rfl⟩

/-- Behind an item comes a comma, the closing bracket or white space. -/
theorem stops (h : Remains false items t) {c : Char} (hc : c ∈ [',', ':', ']', '}']) (rest : Text) :
    Stops (t ++ c :: rest) := by
  cases h with
  | done h => exact stops_spaces h hc rest
  | @more _ after t hafter _ =>
    rw [List.append_assoc]
    exact stops_spaces hafter (c := ',') (by decide) (t ++ c :: rest)

end Remains

/-- Commas stand between the items, so that the text is nearly as long as they are many. -/
theorem Row.length_le {items : List Text} {t : Text} (h : Row items t) : items.length ≤ t.length + 1 := by
  induction h with
  | last => simp
  | next _ _ _ ih =>
    simp only [List.length_cons, List.length_append]
    omega

/-- As much fuel as there are characters is enough for the items. -/
theorem Body.length_lt {ι : Type} {items : List ι} {text : ι → Text} {body : Text} (h : Body (items.map text) body)
    (c : Char) (rest : Text) : items.length < (body ++ c :: rest).length + 1 := by
  have hlength : (items.map text).length ≤ body.length + 1 := by
    generalize items.map text = texts at h
    cases h with
    | empty => simp
    | row h => exact h.length_le
  simp only [List.length_map, List.length_append, List.length_cons] at hlength ⊢
  omega

/-! ## Lists -/

namespace Read

theorem nextElement_done {first : Bool} {t : Text} (h : Remains first [] t) (rest : Text) (p : Place) :
    ∃ q, nextElement first ⟨t ++ ']' :: rest, p⟩ = .ok (false, ⟨']' :: rest, q⟩) := by
  obtain ⟨q, hq⟩ := token_spaces h.spaces (c := ']') rfl rest p
  exact ⟨q, by rw [nextElement, bind_ok hq]; rfl⟩

theorem nextElement_item {first : Bool} {item : Text} {items : List Text} {t : Text}
    (h : Remains first (item :: items) t) (hitem : Opened item) (rest : Text) (p : Place) :
    ∃ tail q, Remains false items tail ∧
      nextElement first ⟨t ++ ']' :: rest, p⟩ = .ok (true, ⟨item ++ (tail ++ ']' :: rest), q⟩) := by
  obtain ⟨before, tail, hbefore, htail, ht⟩ := h.next
  obtain ⟨c, rest', rfl, hspace, hend, -⟩ := hitem.head
  have htoken := token_spaces hbefore hspace (rest' ++ (tail ++ ']' :: rest))
  cases first with
  | true =>
    obtain ⟨q, hq⟩ := htoken p
    refine ⟨tail, q, htail, ?_⟩
    rw [if_pos rfl] at ht
    rw [ht, List.append_assoc, List.append_assoc, List.cons_append, nextElement, bind_ok hq]
    simp only [if_true]
    rfl
  | false =>
    obtain ⟨after, hafter, rfl⟩ := ht
    obtain ⟨q, hq⟩ := token_spaces hafter (c := ',') rfl (before ++ c :: (rest' ++ (tail ++ ']' :: rest))) p
    obtain ⟨q', hq'⟩ := htoken (q.after ',')
    refine ⟨tail, q', htail, ?_⟩
    simp only [List.append_assoc, List.cons_append]
    rw [nextElement, bind_ok hq]
    refine (bind_ok (skip_cons ..)).trans ?_
    rw [bind_ok hq']
    simp only
    rfl

section Elements
variable {r : Read α} {w : Writing α}

theorem elements_ok (h : Follows r w) (hopens : Opens w) {items : List (Item α)}
    (hitems : ∀ x ∈ items, w x.gaps x.value x.text) (hgaps : ∀ x ∈ items, x.gaps = 0) {first : Bool} {t : Text}
    (hremains : Remains first (items.map Item.text) t) {fuel : Nat} (hfuel : items.length < fuel) (rest : Text)
    (p : Place) : ∃ q, elements r fuel first ⟨t ++ ']' :: rest, p⟩ = .ok (items.map Item.value, ⟨']' :: rest, q⟩) := by
  obtain ⟨fuel, rfl⟩ : ∃ n, fuel = n + 1 := ⟨fuel - 1, by omega⟩
  induction items generalizing first t fuel p with
  | nil =>
    obtain ⟨q, hq⟩ := nextElement_done hremains rest p
    exact ⟨q, by rw [elements, bind_ok hq]; rfl⟩
  | cons x items ih =>
    obtain ⟨hx, hitems⟩ := List.forall_mem_cons.mp hitems
    obtain ⟨hgap, hgaps⟩ := List.forall_mem_cons.mp hgaps
    rw [hgap] at hx
    rw [List.length_cons] at hfuel
    obtain ⟨fuel', rfl⟩ : ∃ n, fuel = n + 1 := ⟨fuel - 1, by omega⟩
    obtain ⟨tail, q, htail, hq⟩ := nextElement_item hremains (hopens hx) rest p
    obtain ⟨q', hq'⟩ := h.reads hx q spaces_nil (htail.stops (c := ']') (by decide) rest)
    obtain ⟨q'', hq''⟩ := ih hitems hgaps htail q' fuel' (by omega)
    refine ⟨q'', ?_⟩
    rw [elements, bind_ok hq]
    refine (bind_ok hq').trans ?_
    rw [bind_ok hq'', pure_ok, List.map_cons]

theorem elements_error (h : Follows r w) (hopens : Opens w) {items : List (Item α)}
    (hitems : ∀ x ∈ items, w x.gaps x.value x.text) (hgaps : ∃ x ∈ items, x.gaps ≠ 0) {first : Bool} {t : Text}
    (hremains : Remains first (items.map Item.text) t) {fuel : Nat} (hfuel : items.length < fuel) (rest : Text)
    (p : Place) : ∃ f, elements r fuel first ⟨t ++ ']' :: rest, p⟩ = .error f := by
  obtain ⟨fuel, rfl⟩ : ∃ n, fuel = n + 1 := ⟨fuel - 1, by omega⟩
  induction items generalizing first t fuel p with
  | nil =>
    obtain ⟨x, hx, -⟩ := hgaps
    cases hx
  | cons x items ih =>
    obtain ⟨hx, hitems⟩ := List.forall_mem_cons.mp hitems
    obtain ⟨tail, q, htail, hq⟩ := nextElement_item hremains (hopens hx) rest p
    have hstops := htail.stops (c := ']') (by decide) rest
    rw [elements, bind_ok hq]
    by_cases hgap : x.gaps = 0
    · rw [hgap] at hx
      rw [List.length_cons] at hfuel
      obtain ⟨fuel', rfl⟩ : ∃ n, fuel = n + 1 := ⟨fuel - 1, by omega⟩
      have hlater : ∃ y ∈ items, y.gaps ≠ 0 := by
        obtain ⟨y, hy, hne⟩ := hgaps
        rcases List.mem_cons.mp hy with rfl | hy
        · exact absurd hgap hne
        · exact ⟨y, hy, hne⟩
      obtain ⟨q', hq'⟩ := h.reads hx q spaces_nil hstops
      obtain ⟨f, hf⟩ := ih hitems hlater htail q' fuel' (by omega)
      exact ⟨f, (bind_ok hq').trans (bind_error hf)⟩
    · obtain ⟨f, hf⟩ := h.refuses hx hgap q spaces_nil hstops
      exact ⟨f, bind_error hf⟩

end Elements

theorem endList_ok (rest : Text) (p : Place) : ∃ q, endList ⟨']' :: rest, p⟩ = .ok ((), ⟨rest, q⟩) := by
  obtain ⟨q, hq⟩ := token_spaces spaces_nil (c := ']') rfl rest p
  rw [List.nil_append] at hq
  exact ⟨q.after ']', by rw [endList, bind_ok hq]; rfl⟩

theorem openBracket_ok {levels : Nat} (h : 0 < levels) (c : Char) (rest : Text) (p : Place) :
    openBracket levels ⟨c :: rest, p⟩ = .ok ((), ⟨rest, p.after c⟩) := by
  rw [openBracket, if_neg (by omega), skip_cons]

/-- The elements are read once the bracket has been opened. -/
theorem list_bracket (r : Read α) {levels : Nat} (hlevels : 0 < levels) {before : Text} (hbefore : Spaces before)
    (body rest : Text) (p : Place) : ∃ q, Read.list levels r ⟨before ++ ('[' :: (body ++ [']']) ++ rest), p⟩ = (do
      let l ← elements r ((body ++ ']' :: rest).length + 1) true
      endList
      return l) ⟨body ++ ']' :: rest, q⟩ := by
  obtain ⟨q, hq⟩ := valueToken_spaces hbefore (c := '[') rfl (body ++ ']' :: rest) p
  refine ⟨q.after '[', ?_⟩
  rw [List.cons_append, List.append_assoc, List.singleton_append, Read.list, bind_ok hq, if_pos rfl,
    bind_ok (openBracket_ok hlevels ..), bind_ok (get_ok _)]

end Read

theorem follows_list {r : Read α} {w : Writing α} (h : Follows r w) (hopens : Opens w) (levels : Nat) :
    Follows (Read.list levels r) (Writing.list levels w) := by
  constructor
  · intro l t hw
    generalize hsum : 0 = gaps at hw
    obtain @⟨items, body, hlevels, hitems, hbody⟩ := hw
    intro before rest p hbefore _
    obtain ⟨q, hq⟩ := list_bracket r hlevels hbefore body rest p
    have hgaps := List.forall_mem_map.mp (List.sum_eq_zero_iff_forall_eq_nat.mp hsum.symm)
    obtain ⟨q', hq'⟩ := elements_ok h hopens hitems hgaps (.all hbody) (hbody.length_lt ']' rest) rest q
    obtain ⟨q'', hq''⟩ := endList_ok rest q'
    exact ⟨q'', by rw [hq, bind_ok hq', bind_ok hq'', pure_ok]⟩
  · intro gaps l t hw hsum
    obtain @⟨items, body, hlevels, hitems, hbody⟩ := hw
    intro before rest p hbefore _
    obtain ⟨q, hq⟩ := list_bracket r hlevels hbefore body rest p
    have hgaps : ∃ x ∈ items, x.gaps ≠ 0 := by
      obtain ⟨n, hn, hpos⟩ := List.sum_pos_iff_exists_pos_nat.mp (Nat.pos_of_ne_zero hsum)
      obtain ⟨x, hx, rfl⟩ := List.mem_map.mp hn
      exact ⟨x, hx, Nat.ne_of_gt hpos⟩
    obtain ⟨f, hf⟩ := elements_error h hopens hitems hgaps (.all hbody) (hbody.length_lt ']' rest) rest q
    exact ⟨f, by rw [hq]; exact bind_error hf⟩

end Traceback.Json
