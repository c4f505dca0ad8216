import Mathlib.Data.List.Chain
import Traceback.Template

/-! # The grammar of templates

The text of a template is a row of items: characters, of which a brace is written twice, and fields in braces. No
item begins with another, so a text is such a row in one way at most, and a text that is none has one place at which
the row breaks off.

* `Item.spelling`, `Segment.spelling`: how items and segments are written.
* `Merged`: segments as they are when characters have been put together.
* `Blocks`: what stands where no item begins, and the fault that it is.
* `split_or_blocks`, `append_inj_of_stuck`: a text goes on with an item or is blocked, and this in one way.
* `read_grammar`: reading accepts this grammar, and finds the place where a text leaves it.
-/

namespace Traceback
set_option autoImplicit false

/-! ## Fields -/

namespace Field

theorem spelling_head (f : Field) : ∃ c t, f.spelling = c :: t ∧ c ≠ '{' := by
  cases f <;> exact ⟨_, _, rfl, by decide⟩

theorem brace_notMem_spelling (f : Field) : '}' ∉ f.spelling := by cases f <;> decide

theorem mem_all (f : Field) : f ∈ all := by cases f <;> decide

theorem ofSpelling?_spelling (f : Field) : ofSpelling? f.spelling = some f := by cases f <;> decide

theorem ofSpelling?_eq_some {t : Text} {f : Field} (h : ofSpelling? t = some f) : f.spelling = t := by
  simpa using List.find?_some h

theorem ofSpelling?_eq_none_iff {t : Text} : ofSpelling? t = none ↔ ∀ f : Field, f.spelling ≠ t := by
  simp [ofSpelling?, List.find?_eq_none, mem_all]

end Field

namespace Template

/-! ## Spellings -/

/-- A brace is written twice. -/
def doubled (c : Char) : Text := if c = '{' ∨ c = '}' then [c, c] else [c]

def Item.spelling : Item → Text
  | .char c => doubled c
  | .field f => '{' :: (f.spelling ++ ['}'])

/-- What an item becomes when `value` gives the text of each field. -/
def Item.shown (value : Field → Text) : Item → Text
  | .char c => [c]
  | .field f => value f

def Segment.spelling : Segment → Text
  | .text t => t.flatMap doubled
  | .field f => '{' :: (f.spelling ++ ['}'])

/-- A row of items as it is written. -/
def spelled (found : List Item) : Text := found.flatMap Item.spelling

@[simp]
theorem spelled_nil : spelled [] = [] := rfl

@[simp]
theorem spelled_cons (a : Item) (found : List Item) : spelled (a :: found) = a.spelling ++ spelled found :=
  List.flatMap_cons

theorem doubled_of_ne {c : Char} (hopen : c ≠ '{') (hclose : c ≠ '}') : doubled c = [c] := by
  simp [doubled, hopen, hclose]

theorem spelling_ne_nil (a : Item) : a.spelling ≠ [] := by
  cases a with
  | char c =>
    rw [Item.spelling, doubled]
    split <;> exact List.cons_ne_nil _ _
  | field f => exact List.cons_ne_nil _ _

/-! ## The closing brace -/

theorem untilBrace_append {name : Text} (h : '}' ∉ name) (rest : Text) :
    untilBrace (name ++ '}' :: rest) = some (name, rest) := by
  induction name with
  | nil => simp [untilBrace]
  | cons c name ih =>
    rw [List.mem_cons, not_or] at h
    rw [List.cons_append, untilBrace, if_neg (Ne.symm h.1), ih h.2]
    rfl

theorem eq_append_of_untilBrace {t name rest : Text} (h : untilBrace t = some (name, rest)) :
    t = name ++ '}' :: rest ∧ '}' ∉ name := by
  induction t generalizing name with
  | nil => cases h
  | cons c t ih =>
    rw [untilBrace] at h
    by_cases hc : c = '}'
    · subst hc
      rw [if_pos rfl] at h
      cases h
      exact ⟨rfl, List.not_mem_nil⟩
    · rw [if_neg hc, Option.map_eq_some_iff] at h
      obtain ⟨⟨inner, after⟩, hinner, hpair⟩ := h
      cases hpair
      obtain ⟨rfl, hclose⟩ := ih hinner
      exact ⟨rfl, by simp [hclose, Ne.symm hc]⟩

theorem brace_notMem_of_untilBrace {t : Text} (h : untilBrace t = none) : '}' ∉ t := by
  intro hmem
  obtain ⟨name, rest, rfl, hname⟩ := List.eq_append_cons_of_mem hmem
  rw [untilBrace_append hname] at h
  cases h

/-! ## One item -/

/-- The bytes that a text takes. -/
def size (t : Text) : Nat := (Utf8.encode t).length

@[simp]
theorem size_nil : size [] = 0 := rfl

@[simp]
theorem size_cons (c : Char) (t : Text) : size (c :: t) = (Utf8.encodeChar c).length + size t := by
  simp [size, Utf8.encode]

theorem size_append (s t : Text) : size (s ++ t) = size s + size t := by simp [size, Utf8.encode]

theorem items_open {rest : Text} (p : Nat) (h : rest.head? ≠ some '{') : items p ('{' :: rest) =
    match untilBrace rest with
    | none => .error (.unclosed p)
    | some (name, after) =>
      match Field.ofSpelling? name with
      | none => .error (.unknownField name)
      | some f => (items (p + 2 + size name) after).map (.field f :: ·) := by
  have hne : ∀ after, rest ≠ '{' :: after := by
    rintro after rfl
    exact h rfl
  rw [items.eq_4 _ _ hne]
  split
  next huntil => rw [huntil]
  next name after huntil =>
    rw [huntil]
    rfl

/-- An item in front of a text is the first of its items. -/
theorem items_spelling (a : Item) (p : Nat) (rest : Text) :
    items p (a.spelling ++ rest) = (items (p + size a.spelling) rest).map (a :: ·) := by
  cases a with
  | char c =>
    by_cases hopen : c = '{'
    · subst hopen
      exact items.eq_2 p rest
    · by_cases hclose : c = '}'
      · subst hclose
        exact items.eq_3 p rest
      · rw [Item.spelling, doubled_of_ne hopen hclose, List.singleton_append, items.eq_6]
        · simp
        · simp_all
        · simp_all
        · simp_all
        · simp_all
  | field f =>
    obtain ⟨c, t, hspelling, hc⟩ := f.spelling_head
    have hhead : (f.spelling ++ '}' :: rest).head? ≠ some '{' := by simpa [hspelling] using hc
    have hsize : size (Item.field f).spelling = 2 + size f.spelling := by
      have hbrace : (Utf8.encodeChar '{').length = 1 ∧ (Utf8.encodeChar '}').length = 1 := by decide
      simp only [Item.spelling, size_cons, size_append, size_nil, hbrace]
      omega
    rw [Item.spelling, List.cons_append, List.append_assoc, List.singleton_append, items_open p hhead,
      untilBrace_append f.brace_notMem_spelling, ← Item.spelling, hsize]
    dsimp only
    rw [f.ofSpelling?_spelling, Nat.add_assoc]

theorem items_spelled (found : List Item) (p : Nat) (rest : Text) :
    items p (spelled found ++ rest) = (items (p + size (spelled found)) rest).map (found ++ ·) := by
  induction found generalizing p with
  | nil => cases h : items p rest <;> simp [h, Except.map]
  | cons a found ih =>
    rw [spelled_cons, List.append_assoc, items_spelling, ih, size_append, Nat.add_assoc]
    cases items (p + (size a.spelling + size (spelled found))) rest <;> rfl

/-! ## Where no item begins -/

/-- At `p` stands no item: a brace that is neither written twice nor closed, a name between braces that no field has,
or a closing brace alone. -/
inductive Blocks (p : Nat) : Text → Fault → Prop where
  | unclosed (rest : Text) (hsingle : rest.head? ≠ some '{') (hrest : '}' ∉ rest) :
    Blocks p ('{' :: rest) (.unclosed p)
  | unknownField (name rest : Text) (hsingle : name.head? ≠ some '{') (hname : '}' ∉ name)
      (hunknown : ∀ f : Field, f.spelling ≠ name) :
    Blocks p ('{' :: (name ++ '}' :: rest)) (.unknownField name)
  | unmatched (rest : Text) (hsingle : rest.head? ≠ some '}') : Blocks p ('}' :: rest) (.unmatched p)

theorem items_of_blocks {p : Nat} {s : Text} {f : Fault} (h : Blocks p s f) : items p s = .error f := by
  cases h with
  | unclosed rest hsingle hrest =>
    rw [items_open p hsingle]
    cases huntil : untilBrace rest with
    | none => rfl
    | some found =>
      obtain ⟨name, after⟩ := found
      obtain ⟨rfl, -⟩ := eq_append_of_untilBrace huntil
      simp at hrest
  | unknownField name rest hsingle hname hunknown =>
    have hhead : (name ++ '}' :: rest).head? ≠ some '{' := by
      cases name with
      | nil => simp
      | cons c name => exact hsingle
    rw [items_open p hhead, untilBrace_append hname]
    dsimp only
    rw [Field.ofSpelling?_eq_none_iff.mpr hunknown]
  | unmatched rest hsingle =>
    have hne : ∀ after, rest ≠ '}' :: after := by
      rintro after rfl
      exact hsingle rfl
    exact items.eq_5 p rest hne

/-- What may stand at the front of a text. -/
theorem split_or_blocks (s : Text) :
    s = [] ∨ (∃ (a : Item) (rest : Text), s = a.spelling ++ rest) ∨ ∀ p, ∃ f, Blocks p s f := by
  cases s with
  | nil => exact .inl rfl
  | cons c rest =>
    refine .inr ?_
    by_cases hopen : c = '{'
    · subst hopen
      by_cases hsingle : rest.head? = some '{'
      · obtain ⟨after, rfl⟩ := List.head?_eq_some_iff.mp hsingle
        exact .inl ⟨.char '{', after, rfl⟩
      cases huntil : untilBrace rest with
      | none => exact .inr fun p => ⟨_, .unclosed rest hsingle (brace_notMem_of_untilBrace huntil)⟩
      | some found =>
        obtain ⟨name, after⟩ := found
        obtain ⟨rfl, hname⟩ := eq_append_of_untilBrace huntil
        cases hfield : Field.ofSpelling? name with
        | some f =>
          refine .inl ⟨.field f, after, ?_⟩
          simp [Item.spelling, Field.ofSpelling?_eq_some hfield]
        | none =>
          have hhead : name.head? ≠ some '{' := by
            cases name with
            | nil => simp
            | cons d name => exact hsingle
          exact .inr fun p => ⟨_, .unknownField name after hhead hname (Field.ofSpelling?_eq_none_iff.mp hfield)⟩
    by_cases hclose : c = '}'
    · subst hclose
      by_cases hsingle : rest.head? = some '}'
      · obtain ⟨after, rfl⟩ := List.head?_eq_some_iff.mp hsingle
        exact .inl ⟨.char '}', after, rfl⟩
      · exact .inr fun p => ⟨_, .unmatched rest hsingle⟩
    · refine .inl ⟨.char c, rest, ?_⟩
      rw [Item.spelling, doubled_of_ne hopen hclose]
      rfl

/-- A text is a row of items, up to its end or up to where it is blocked. -/
theorem exists_spelled (s : Text) :
    ∃ found rest, s = spelled found ++ rest ∧ (rest = [] ∨ ∀ p, ∃ f, Blocks p rest f) := by
  -- On the length, of which every item takes something.
  induction h : s.length using Nat.strongRecOn generalizing s with
  | ind n ih =>
    subst h
    rcases split_or_blocks s with rfl | ⟨a, rest, rfl⟩ | hblocks
    · exact ⟨[], [], rfl, .inl rfl⟩
    · have hpos : 0 < a.spelling.length := List.length_pos_of_ne_nil (spelling_ne_nil a)
      obtain ⟨found, last, rfl, hlast⟩ := ih rest.length (by rw [List.length_append]; omega) rest rfl
      exact ⟨a :: found, last, by rw [spelled_cons, List.append_assoc], hlast⟩
    · exact ⟨[], s, rfl, .inr hblocks⟩

/-! ## One way only -/

/-- No item is the beginning of another. -/
theorem spelling_append_inj {a b : Item} {s t : Text} (h : a.spelling ++ s = b.spelling ++ t) : a = b ∧ s = t := by
  have hfield : ∀ (f : Field) (c : Char) (s t : Text), doubled c ++ s ≠ (Item.field f).spelling ++ t := by
    intro f c s t heq
    obtain ⟨d, name, hspelling, hd⟩ := f.spelling_head
    rw [Item.spelling, hspelling, doubled] at heq
    split at heq
    · simp only [List.cons_append, List.nil_append, List.cons.injEq] at heq
      exact hd (heq.2.1.symm.trans heq.1)
    · simp_all
  cases a with
  | char c =>
    cases b with
    | char d =>
      simp only [Item.spelling, doubled] at h
      split at h <;> split at h <;> simp_all
    | field g => exact absurd h (hfield g c s t)
  | field f =>
    cases b with
    | char d => exact absurd h.symm (hfield f d t s)
    | field g =>
      -- Both names go up to the first closing brace.
      have hname : f.spelling ++ '}' :: s = g.spelling ++ '}' :: t := by simpa [Item.spelling] using h
      have huntil := untilBrace_append f.brace_notMem_spelling s
      rw [hname, untilBrace_append g.brace_notMem_spelling t] at huntil
      simp only [Option.some.injEq, Prod.mk.injEq] at huntil
      have hsome := f.ofSpelling?_spelling
      rw [← huntil.1, g.ofSpelling?_spelling] at hsome
      cases hsome
      exact ⟨rfl, huntil.2.symm⟩

/-- No item stands at the front. -/
def Stuck (s : Text) : Prop := ∀ (a : Item) (rest : Text), s ≠ a.spelling ++ rest

theorem stuck_nil : Stuck [] := fun a _ h => spelling_ne_nil a (List.append_eq_nil_iff.mp h.symm).1

theorem eq_of_open {a : Item} {rest t : Text} (h : '{' :: rest = a.spelling ++ t) :
    rest.head? = some '{' ∨ ∃ f : Field, rest = f.spelling ++ '}' :: t := by
  cases a with
  | char c =>
    refine .inl ?_
    rw [Item.spelling, doubled] at h
    split at h
    next =>
      obtain ⟨rfl, rfl⟩ := List.cons.inj h
      rfl
    next hc =>
      obtain ⟨rfl, -⟩ := List.cons.inj h
      simp at hc
  | field f =>
    refine .inr ⟨f, ?_⟩
    simpa [Item.spelling] using h

theorem Blocks.stuck {p : Nat} {s : Text} {f : Fault} (h : Blocks p s f) : Stuck s := by
  intro a t heq
  cases h with
  | unclosed rest hsingle hrest =>
    rcases eq_of_open heq with hdouble | ⟨g, rfl⟩
    · exact hsingle hdouble
    · simp at hrest
  | unknownField name rest hsingle hname hunknown =>
    rcases eq_of_open heq with hdouble | ⟨g, hg⟩
    · cases name with
      | nil => simp at hdouble
      | cons c name => exact hsingle hdouble
    · have huntil := untilBrace_append hname rest
      rw [hg, untilBrace_append g.brace_notMem_spelling] at huntil
      simp only [Option.some.injEq, Prod.mk.injEq] at huntil
      exact hunknown g huntil.1
  | unmatched rest hsingle =>
    cases a with
    | char c =>
      rw [Item.spelling, doubled] at heq
      split at heq
      next =>
        obtain ⟨rfl, rfl⟩ := List.cons.inj heq
        exact hsingle rfl
      next hc =>
        obtain ⟨rfl, -⟩ := List.cons.inj heq
        simp at hc
    | field g => simp [Item.spelling] at heq

/-- A text is a row of items up to a place where none stands in one way only. -/
theorem append_inj_of_stuck {found more : List Item} {s t : Text} (hs : Stuck s) (ht : Stuck t)
    (h : spelled found ++ s = spelled more ++ t) : found = more ∧ s = t := by
  induction found generalizing more with
  | nil =>
    cases more with
    | nil => exact ⟨rfl, h⟩
    | cons b more =>
      rw [spelled_cons, List.append_assoc] at h
      exact absurd h (hs b _)
  | cons a found ih =>
    rw [spelled_cons, List.append_assoc] at h
    cases more with
    | nil => exact absurd h.symm (ht a _)
    | cons b more =>
      rw [spelled_cons, List.append_assoc] at h
      obtain ⟨rfl, hrest⟩ := spelling_append_inj h
      obtain ⟨rfl, rfl⟩ := ih hrest
      exact ⟨rfl, rfl⟩

theorem spelled_inj {found more : List Item} (h : spelled found = spelled more) : found = more :=
  (append_inj_of_stuck stuck_nil stuck_nil (congrArg (· ++ []) h)).1

/-! ## Segments -/

/-- The items that a segment was gathered from. -/
def Segment.items : Segment → List Item
  | .text t => t.map .char
  | .field f => [.field f]

def Segment.isText : Segment → Bool
  | .text _ => true
  | .field _ => false

/-- No text is empty, and no two texts are neighbours. -/
structure Merged (segments : List Segment) : Prop where
  nonempty : .text [] ∉ segments
  apart : segments.IsChain fun a b => a.isText = false ∨ b.isText = false

theorem spelled_items (a : Segment) : spelled a.items = a.spelling := by
  cases a with
  | text t => simp [Segment.items, Segment.spelling, spelled, List.flatMap_map, Item.spelling]
  | field f => simp [Segment.items, Segment.spelling, Item.spelling]

theorem flatMap_items_gathered (found : List Item) : (gathered found).flatMap Segment.items = found := by
  induction found with
  | nil => rfl
  | cons a found ih =>
    cases a with
    | field f => rw [gathered, List.flatMap_cons, ih]; rfl
    | char c =>
      rw [gathered]
      split
      next t others h =>
        rw [h, List.flatMap_cons] at ih
        rw [List.flatMap_cons, ← ih]
        rfl
      next => rw [List.flatMap_cons, ih]; rfl

theorem merged_nil : Merged [] := ⟨List.not_mem_nil, List.IsChain.nil⟩

theorem merged_field_iff {f : Field} {segments : List Segment} : Merged (.field f :: segments) ↔ Merged segments := by
  constructor
  · rintro ⟨hnonempty, hapart⟩
    exact ⟨fun h => hnonempty (List.mem_cons_of_mem _ h), hapart.tail⟩
  · rintro ⟨hnonempty, hapart⟩
    exact ⟨by simp [hnonempty], hapart.cons fun _ _ => .inl rfl⟩

theorem merged_text_iff {t : Text} {segments : List Segment} :
    Merged (.text t :: segments) ↔ t ≠ [] ∧ (∀ a ∈ segments.head?, a.isText = false) ∧ Merged segments := by
  constructor
  · rintro ⟨hnonempty, hapart⟩
    obtain ⟨hhead, htail⟩ := List.isChain_cons.mp hapart
    refine ⟨?_, fun a ha => (hhead a ha).resolve_left Bool.noConfusion, ?_, htail⟩
    · rintro rfl
      exact hnonempty (List.mem_cons_self ..)
    · exact fun h => hnonempty (List.mem_cons_of_mem _ h)
  · rintro ⟨ht, hhead, hnonempty, hapart⟩
    exact ⟨by simp [hnonempty, Ne.symm ht], hapart.cons fun a ha => .inr (hhead a ha)⟩

theorem merged_gathered (found : List Item) : Merged (gathered found) := by
  induction found with
  | nil => exact merged_nil
  | cons a found ih =>
    cases a with
    | field f => exact merged_field_iff.mpr ih
    | char c =>
      rw [gathered]
      split
      next t others h =>
        rw [h] at ih
        exact merged_text_iff.mpr ⟨List.cons_ne_nil _ _, (merged_text_iff.mp ih).2⟩
      next hne =>
        refine merged_text_iff.mpr ⟨List.cons_ne_nil _ _, fun a ha => ?_, ih⟩
        cases a with
        | field f => rfl
        | text t =>
          obtain ⟨others, h⟩ := List.head?_eq_some_iff.mp ha
          exact absurd h (hne t others)

theorem gathered_text_append {t : Text} (ht : t ≠ []) {found : List Item}
    (h : ∀ a ∈ (gathered found).head?, a.isText = false) :
    gathered (t.map .char ++ found) = .text t :: gathered found := by
  induction t with
  | nil => exact absurd rfl ht
  | cons c t ih =>
    rw [List.map_cons, List.cons_append, gathered]
    cases t with
    | nil =>
      rw [List.map_nil, List.nil_append]
      split
      next s others heq =>
        have htext := h (.text s) (by rw [heq]; rfl)
        cases htext
      next => rfl
    | cons d t => rw [ih (List.cons_ne_nil _ _)]

theorem gathered_flatMap_items {segments : List Segment} (h : Merged segments) :
    gathered (segments.flatMap Segment.items) = segments := by
  induction segments with
  | nil => rfl
  | cons a segments ih =>
    rw [List.flatMap_cons]
    cases a with
    | field f =>
      rw [Segment.items, List.singleton_append, gathered, ih (merged_field_iff.mp h)]
    | text t =>
      obtain ⟨ht, hhead, hrest⟩ := merged_text_iff.mp h
      have ih := ih hrest
      rw [Segment.items, gathered_text_append ht (by rw [ih]; exact hhead), ih]

/-! ## Reading -/

theorem items_eq_ok_iff {s : Text} {found : List Item} : items 0 s = .ok found ↔ s = spelled found := by
  have hok : ∀ more : List Item, items 0 (spelled more) = .ok more := fun more => by
    have h := items_spelled more 0 []
    rw [List.append_nil, items.eq_1] at h
    simpa [Except.map] using h
  constructor
  · intro h
    obtain ⟨more, rest, rfl, rfl | hblocks⟩ := exists_spelled s
    · rw [List.append_nil, hok] at h
      cases h
      exact List.append_nil _
    · obtain ⟨f, hf⟩ := hblocks (0 + size (spelled more))
      rw [items_spelled, items_of_blocks hf] at h
      cases h
  · rintro rfl
    exact hok found

theorem read_eq_ok_iff {s : Text} {t : Template} :
    read s = .ok t ↔ ∃ found, s = spelled found ∧ t = ⟨s, gathered found⟩ := by
  rw [read]
  constructor
  · intro h
    cases hitems : items 0 s with
    | error f =>
      rw [hitems] at h
      cases h
    | ok found =>
      rw [hitems] at h
      cases h
      exact ⟨found, items_eq_ok_iff.mp hitems, rfl⟩
  · rintro ⟨found, hs, rfl⟩
    rw [items_eq_ok_iff.mpr hs]
    rfl

/-- The text before byte `p` is a template, and no item follows it. -/
def BreaksOff (s : Text) (p : Nat) (f : Fault) : Prop :=
  ∃ before after, s = before ++ after ∧ size before = p ∧ (∃ t, read before = .ok t) ∧ Blocks p after f

theorem BreaksOff.exists_items {s : Text} {p : Nat} {f : Fault} (h : BreaksOff s p f) :
    ∃ found after, s = spelled found ++ after ∧ size (spelled found) = p ∧ Blocks p after f := by
  obtain ⟨before, after, hs, hsize, ⟨t, ht⟩, hblocks⟩ := h
  obtain ⟨found, rfl, -⟩ := read_eq_ok_iff.mp ht
  exact ⟨found, after, hs, hsize, hblocks⟩

theorem blocks_unique {p : Nat} {s : Text} {f g : Fault} (hf : Blocks p s f) (hg : Blocks p s g) : f = g := by
  have h := items_of_blocks hf
  rw [items_of_blocks hg] at h
  cases h
  rfl

theorem breaksOff_unique {s : Text} {p q : Nat} {f g : Fault} (hp : BreaksOff s p f) (hq : BreaksOff s q g) :
    p = q ∧ f = g := by
  obtain ⟨found, after, rfl, rfl, hf⟩ := hp.exists_items
  obtain ⟨more, rest, hs, rfl, hg⟩ := hq.exists_items
  obtain ⟨rfl, rfl⟩ := append_inj_of_stuck hf.stuck hg.stuck hs
  exact ⟨rfl, blocks_unique hf hg⟩

theorem read_eq_error_iff {s : Text} {f : Fault} : read s = .error f ↔ ∃ p, BreaksOff s p f := by
  have herror : ∀ {p : Nat} {found : List Item} {after : Text} {g : Fault}, size (spelled found) = p →
      Blocks p after g → read (spelled found ++ after) = .error g := by
    intro p found after g hsize hg
    rw [read, items_spelled, Nat.zero_add, hsize, items_of_blocks hg]
    rfl
  constructor
  · intro h
    obtain ⟨found, rest, rfl, rfl | hblocks⟩ := exists_spelled s
    · rw [List.append_nil, read_eq_ok_iff.mpr ⟨found, rfl, rfl⟩] at h
      cases h
    · obtain ⟨g, hg⟩ := hblocks (size (spelled found))
      rw [herror rfl hg] at h
      cases h
      exact ⟨_, _, rest, rfl, rfl, ⟨_, read_eq_ok_iff.mpr ⟨found, rfl, rfl⟩⟩, hg⟩
  · rintro ⟨p, hp⟩
    obtain ⟨found, after, rfl, hsize, hf⟩ := hp.exists_items
    exact herror hsize hf

/-! ## Rendering -/

theorem render_eq_flatMap (source : Text) (found : List Item) (value : Field → Text) :
    render ⟨source, gathered found⟩ value = found.flatMap (Item.shown value) := by
  have hsegment : ∀ a : Segment, (match a with | .text t => t | .field f => value f) =
      a.items.flatMap (Item.shown value) := fun a => by
    cases a with
    | text t => simp [Segment.items, List.flatMap_map, Item.shown]
    | field f => simp [Segment.items, Item.shown]
  calc render ⟨source, gathered found⟩ value
      = (gathered found).flatMap fun a => a.items.flatMap (Item.shown value) :=
        List.flatMap_congr fun a _ => hsegment a
    _ = ((gathered found).flatMap Segment.items).flatMap (Item.shown value) := List.flatMap_assoc.symm
    _ = found.flatMap (Item.shown value) := by rw [flatMap_items_gathered]

theorem flatMap_spelling (segments : List Segment) :
    segments.flatMap Segment.spelling = spelled (segments.flatMap Segment.items) := by
  rw [spelled, List.flatMap_assoc]
  exact List.flatMap_congr fun a _ => (spelled_items a).symm

/-! ## The grammar -/

/-- **Templates have the grammar of rows of items.** A text is read when it is such a row, which it is in one way only.
Its segments, written out, are the text again, and any segments that are merged are read as they are written. What is
shown is put together from the items in one pass, so that braces in the text of a field are text. A text that is not
read has one place at which it breaks off, and the fault tells what stands there. -/
theorem read_grammar (s : Text) :
    ((∃ t, read s = .ok t) ↔ ∃ found, s = spelled found) ∧
    (∀ found more, s = spelled found → s = spelled more → found = more) ∧
    (∀ t, read s = .ok t → t.source = s ∧ Merged t.segments ∧ t.segments.flatMap Segment.spelling = s) ∧
    (∀ segments, Merged segments → s = segments.flatMap Segment.spelling → read s = .ok ⟨s, segments⟩) ∧
    (∀ t found, read s = .ok t → s = spelled found → ∀ value, t.render value = found.flatMap (Item.shown value)) ∧
    (∀ f, read s = .error f ↔ ∃ p, BreaksOff s p f) ∧
    (∀ p q f g, BreaksOff s p f → BreaksOff s q g → p = q ∧ f = g) := by
  refine ⟨⟨?_, ?_⟩, ?_, ?_, ?_, ?_, fun f => read_eq_error_iff, fun p q f g => breaksOff_unique⟩
  · rintro ⟨t, ht⟩
    obtain ⟨found, hs, -⟩ := read_eq_ok_iff.mp ht
    exact ⟨found, hs⟩
  · rintro ⟨found, hs⟩
    exact ⟨_, read_eq_ok_iff.mpr ⟨found, hs, rfl⟩⟩
  · rintro found more hfound hmore
    exact spelled_inj (hfound.symm.trans hmore)
  · intro t ht
    obtain ⟨found, hs, rfl⟩ := read_eq_ok_iff.mp ht
    refine ⟨rfl, merged_gathered found, ?_⟩
    rw [flatMap_spelling, flatMap_items_gathered, ← hs]
  · intro segments hmerged hs
    rw [flatMap_spelling] at hs
    exact read_eq_ok_iff.mpr ⟨_, hs, by rw [gathered_flatMap_items hmerged]⟩
  · intro t found ht hs value
    obtain ⟨more, hmore, rfl⟩ := read_eq_ok_iff.mp ht
    rw [spelled_inj (hs.symm.trans hmore)]
    exact render_eq_flatMap s more value

end Template
end Traceback
