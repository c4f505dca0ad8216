import Traceback.Text.Basic

/-! # How JSON values are written

White space may stand around every token, a character of a string may be written in several ways, and the members of
an object may stand in any order. These are the texts that the grammar of JSON allows for a value.

* `WritesText`: a text as a string, in every way to escape its characters.
* `Row`, `Body`: what stands between the brackets of a list or an object.
* `Pair`: a member of an object.
* `IsValue`: any value at all.
-/

namespace Traceback.Json
set_option autoImplicit false

/-! ## White space -/

/-- White space, or nothing. -/
def Spaces (t : Text) : Prop := ∀ c ∈ t, c ∈ [' ', '\n', '\t', '\r']

instance (t : Text) : Decidable (Spaces t) := List.decidableBAll _ t

theorem spaces_nil : Spaces [] := List.forall_mem_nil _

/-! ## Strings -/

/-- `d` is the hexadecimal digit for `n`, small or capital. -/
def IsHexDigit (n : Nat) (d : Char) : Prop :=
  "0123456789abcdef".toList[n]? = some d ∨ "0123456789ABCDEF".toList[n]? = some d

/-- The four hexadecimal digits of `n`. -/
inductive IsHexCode (n : Nat) : Text → Prop where
  | digits (a b c d : Char) (ha : IsHexDigit (n / 4096) a) (hb : IsHexDigit (n / 256 % 16) b)
      (hc : IsHexDigit (n / 16 % 16) c) (hd : IsHexDigit (n % 16) d) : IsHexCode n [a, b, c, d]

/-- The letters that may follow a backslash, and what they stand for. -/
def escapes : List (Char × Char) :=
  [('"', '"'), ('\\', '\\'), ('/', '/'), ('b', '\x08'), ('f', '\x0c'), ('n', '\n'), ('r', '\r'), ('t', '\t')]

/-- A character may stand for itself. -/
def IsPlain (c : Char) : Prop := 0x20 ≤ c.toNat ∧ c ≠ '"' ∧ c ≠ '\\'

instance (c : Char) : Decidable (IsPlain c) := inferInstanceAs (Decidable (_ ∧ _ ∧ _))

inductive WritesChar (c : Char) : Text → Prop where
  | plain (h : IsPlain c) : WritesChar c [c]
  | letter (l : Char) (h : (l, c) ∈ escapes) : WritesChar c ['\\', l]
  | code (ds : Text) (h : IsHexCode c.toNat ds) : WritesChar c ('\\' :: 'u' :: ds)
  /-- A code of four digits is too short for the character, which is written with two. -/
  | pair (high low : Text) (hwide : 0x10000 ≤ c.toNat) (hhigh : IsHexCode (0xD800 + (c.toNat - 0x10000) / 1024) high)
      (hlow : IsHexCode (0xDC00 + (c.toNat - 0x10000) % 1024) low) :
    WritesChar c ('\\' :: 'u' :: (high ++ '\\' :: 'u' :: low))

inductive WritesChars : Text → Text → Prop where
  | nil : WritesChars [] []
  | cons {c : Char} {t s inner : Text} (hc : WritesChar c s) (ht : WritesChars t inner) :
    WritesChars (c :: t) (s ++ inner)

inductive WritesText (t : Text) : Text → Prop where
  | quoted {inner : Text} (h : WritesChars t inner) : WritesText t ('"' :: (inner ++ ['"']))

theorem writesText_of_plain {t : Text} (h : t.all (fun c => decide (IsPlain c)) = true) :
    WritesText t ('"' :: (t ++ ['"'])) := by
  have hchars : WritesChars t t := by
    induction t with
    | nil => exact .nil
    | cons c t ih =>
      rw [List.all_cons, Bool.and_eq_true, decide_eq_true_iff] at h
      exact .cons (.plain h.1) (ih h.2)
  exact .quoted hchars

theorem exists_isHexCode {n : Nat} (h : n < 65536) : ∃ ds, IsHexCode n ds := by
  have hdigit : ∀ {k : Nat}, k < 16 → ∃ d, IsHexDigit k d := fun hk => ⟨_, .inl (List.getElem?_eq_getElem hk)⟩
  obtain ⟨a, ha⟩ := hdigit (k := n / 4096) (by omega)
  obtain ⟨b, hb⟩ := hdigit (k := n / 256 % 16) (by omega)
  obtain ⟨c, hc⟩ := hdigit (k := n / 16 % 16) (by omega)
  obtain ⟨d, hd⟩ := hdigit (k := n % 16) (by omega)
  exact ⟨_, .digits a b c d ha hb hc hd⟩

/-- Every character has a short code or may stand for itself. -/
theorem exists_writesText (t : Text) : ∃ s, WritesText t s := by
  have hchar : ∀ c : Char, ∃ s, WritesChar c s := by
    intro c
    by_cases hshort : c.toNat < 65536
    · obtain ⟨ds, hds⟩ := exists_isHexCode hshort
      exact ⟨_, .code ds hds⟩
    · refine ⟨_, .plain ⟨by omega, ?_, ?_⟩⟩
      · rintro rfl
        exact hshort (by decide)
      · rintro rfl
        exact hshort (by decide)
  have hchars : ∃ inner, WritesChars t inner := by
    induction t with
    | nil => exact ⟨[], .nil⟩
    | cons c t ih =>
      obtain ⟨s, hs⟩ := hchar c
      obtain ⟨inner, hinner⟩ := ih
      exact ⟨_, .cons hs hinner⟩
  obtain ⟨inner, hinner⟩ := hchars
  exact ⟨_, .quoted hinner⟩

/-- What may stand in a string, whether or not its codes denote characters. -/
inductive IsInner : Text → Prop where
  | nil : IsInner []
  | plain {c : Char} {inner : Text} (hc : IsPlain c) (h : IsInner inner) : IsInner (c :: inner)
  | letter {l c : Char} {inner : Text} (hl : (l, c) ∈ escapes) (h : IsInner inner) : IsInner ('\\' :: l :: inner)
  | code {n : Nat} {ds inner : Text} (hds : IsHexCode n ds) (h : IsInner inner) :
    IsInner ('\\' :: 'u' :: (ds ++ inner))

inductive IsString : Text → Prop where
  | quoted {inner : Text} (h : IsInner inner) : IsString ('"' :: (inner ++ ['"']))

/-! ## Numbers -/

def IsDigits (ds : Text) : Prop := ds ≠ [] ∧ ∀ c ∈ ds, c.isDigit = true

/-- Digits, of which only a single one may begin with zero. -/
def IsWhole (ds : Text) : Prop := IsDigits ds ∧ (ds.head? = some '0' → ds = ['0'])

inductive IsFraction : Text → Prop where
  | absent : IsFraction []
  | point {ds : Text} (h : IsDigits ds) : IsFraction ('.' :: ds)

inductive IsExponent : Text → Prop where
  | absent : IsExponent []
  | mark {e : Char} {sign ds : Text} (he : e = 'e' ∨ e = 'E') (hsign : sign ∈ [[], ['+'], ['-']]) (h : IsDigits ds) :
    IsExponent (e :: (sign ++ ds))

inductive IsNumber : Text → Prop where
  | parts {sign whole fraction exponent : Text} (hsign : sign ∈ [[], ['-']]) (hwhole : IsWhole whole)
      (hfraction : IsFraction fraction) (hexponent : IsExponent exponent) :
    IsNumber (sign ++ (whole ++ (fraction ++ exponent)))

/-! ## Lists and objects -/

/-- Items in order, commas between them and white space around them. -/
inductive Row : List Text → Text → Prop where
  | last {before item after : Text} (hbefore : Spaces before) (hafter : Spaces after) :
    Row [item] (before ++ (item ++ after))
  | next {before item after rest : Text} {items : List Text} (hbefore : Spaces before) (hafter : Spaces after)
      (h : Row items rest) : Row (item :: items) (before ++ (item ++ (after ++ ',' :: rest)))

/-- The first item stands behind white space that may be left out. -/
theorem Row.first {items : List Text} {t : Text} (h : Row items t) :
    ∃ item ∈ items, ∃ before tail, Spaces before ∧ t = before ++ (item ++ tail) ∧ Row items (item ++ tail) := by
  cases h with
  | @last before item after hbefore hafter =>
    exact ⟨item, List.mem_cons_self .., before, after, hbefore, rfl, .last spaces_nil hafter⟩
  | @next before item after tail items hbefore hafter h =>
    exact ⟨item, List.mem_cons_self .., before, after ++ ',' :: tail, hbefore, rfl, .next spaces_nil hafter h⟩

/-- What stands between brackets. -/
inductive Body : List Text → Text → Prop where
  | empty {space : Text} (h : Spaces space) : Body [] space
  | row {items : List Text} {t : Text} (h : Row items t) : Body items t

theorem exists_body (items : List Text) : ∃ t, Body items t := by
  have hrow : ∀ (item : Text) (items : List Text), ∃ t, Row (item :: items) t := by
    intro item items
    induction items generalizing item with
    | nil => exact ⟨_, .last spaces_nil spaces_nil⟩
    | cons next items ih =>
      obtain ⟨t, ht⟩ := ih next
      exact ⟨_, .next spaces_nil spaces_nil ht⟩
  cases items with
  | nil => exact ⟨[], .empty spaces_nil⟩
  | cons item items =>
    obtain ⟨t, ht⟩ := hrow item items
    exact ⟨t, .row ht⟩

/-- A member of an object, as it is written. -/
structure Pair where
  key : Text
  /-- What stands in front of the colon. -/
  before : Text := []
  /-- What stands behind it. -/
  after : Text := []
  value : Text

namespace Pair

def text (p : Pair) : Text := p.key ++ (p.before ++ ':' :: (p.after ++ p.value))

def Spaced (p : Pair) : Prop := Spaces p.before ∧ Spaces p.after

end Pair

/-- A text is a JSON value, nested to any depth. -/
inductive IsValue : Text → Prop where
  | null : IsValue "null".toList
  | yes : IsValue "true".toList
  | no : IsValue "false".toList
  | number {t : Text} (h : IsNumber t) : IsValue t
  | string {t : Text} (h : IsString t) : IsValue t
  | list {items : List Text} {body : Text} (hbody : Body items body) (hitems : ∀ t ∈ items, IsValue t) :
    IsValue ('[' :: (body ++ [']']))
  | object {pairs : List Pair} {body : Text} (hbody : Body (pairs.map Pair.text) body)
      (hkeys : ∀ p ∈ pairs, IsString p.key ∧ p.Spaced) (hvalues : ∀ p ∈ pairs, IsValue p.value) :
    IsValue ('{' :: (body ++ ['}']))

end Traceback.Json
