import Traceback.Proofs.Code.Scan
import Traceback.Proofs.Text.Margin

/-! # Literals with narrower margins

What stands on one line is read alike when the lines behind it have less white space in front.

* `Text.Narrowed.tail`, `Text.Narrowed.prefix_iff`, `Text.Narrowed.takeWhile_eq`: the first line of a narrowed text.
* `Agree`: that two readers refuse their texts, or find the same and leave texts of which one is the other narrowed.
* `number_narrowed`, `stringHead?_agree`, `sign?_agree`: numbers, the openings of strings, and signs.
-/

namespace Traceback
set_option autoImplicit false

namespace Text.Narrowed
variable {t u : Text}

theorem beq_newline_of_true {q : Char → Bool} {c : Char} (hq : q '\n' = false) (hc : q c = true) :
    (c == '\n') = false := by
  refine beq_false_of_ne fun heq => ?_
  rw [heq, hq] at hc
  cases hc

theorem takeWhile_eq {q : Char → Bool} (hq : q '\n' = false) (h : Narrowed false t u) : t.takeWhile q = u.takeWhile q := by
  induction t generalizing u with
  | nil => rw [h.nil_left]
  | cons c t ih =>
    obtain ⟨u, rfl, htail⟩ := h.cons_left
    rw [List.takeWhile_cons, List.takeWhile_cons]
    cases hc : q c with
    | false => rfl
    | true =>
      rw [beq_newline_of_true hq hc] at htail
      rw [if_pos rfl, if_pos rfl, ih htail]

theorem dropWhile {q : Char → Bool} (hq : q '\n' = false) (h : Narrowed false t u) :
    Narrowed false (t.dropWhile q) (u.dropWhile q) := by
  induction t generalizing u with
  | nil =>
    rw [h.nil_left]
    exact .nil
  | cons c t ih =>
    obtain ⟨u, rfl, htail⟩ := h.cons_left
    rw [List.dropWhile_cons, List.dropWhile_cons]
    cases hc : q c with
    | false => exact h
    | true =>
      rw [beq_newline_of_true hq hc] at htail
      exact ih htail

theorem kept {atStart : Bool} {c : Char} (hc : isMarginChar c = false) (h : Narrowed atStart (c :: t) u) :
    ∃ u', u = c :: u' ∧ Narrowed (c == '\n') t u' := (h.of_cons hc).cons_left

/-- A backslash is kept with what it protects. -/
theorem escaped {atStart : Bool} {c : Char} (h : Narrowed atStart ('\\' :: c :: t) u) :
    ∃ u', u = '\\' :: c :: u' ∧ Narrowed (c == '\n') t u' := by
  obtain ⟨u, rfl, htail⟩ := h.kept rfl
  obtain ⟨u, rfl, hrest⟩ := cons_left htail
  exact ⟨u, rfl, hrest⟩

/-- Behind a character of the same line. -/
theorem tail {c : Char} (hc : c ≠ '\n') (h : Narrowed false (c :: t) u) : ∃ u', u = c :: u' ∧ Narrowed false t u' := by
  obtain ⟨u, rfl, htail⟩ := h.cons_left
  rw [beq_false_of_ne hc] at htail
  exact ⟨u, rfl, htail⟩

theorem append_left {p : Text} (hp : '\n' ∉ p) (h : Narrowed false (p ++ t) u) :
    ∃ u', u = p ++ u' ∧ Narrowed false t u' := by
  induction p generalizing u with
  | nil => exact ⟨u, rfl, h⟩
  | cons c p ih =>
    rw [List.mem_cons, not_or] at hp
    obtain ⟨u, rfl, htail⟩ := h.tail (Ne.symm hp.1)
    obtain ⟨u, rfl, hrest⟩ := ih hp.2 htail
    exact ⟨u, rfl, hrest⟩

theorem append_right {p t u : Text} (hp : '\n' ∉ p) (h : Narrowed false t (p ++ u)) :
    ∃ t', t = p ++ t' ∧ Narrowed false t' u := by
  induction p generalizing t with
  | nil => exact ⟨t, rfl, h⟩
  | cons c p ih =>
    rw [List.mem_cons, not_or] at hp
    obtain ⟨t, rfl, htail⟩ := h.cons_right
    rw [beq_false_of_ne (Ne.symm hp.1)] at htail
    obtain ⟨t, rfl, hrest⟩ := ih hp.2 htail
    exact ⟨t, rfl, hrest⟩

theorem prefix_iff {p : Text} (hp : '\n' ∉ p) (h : Narrowed false t u) : p <+: t ↔ p <+: u := by
  constructor
  · rintro ⟨t, rfl⟩
    obtain ⟨u, rfl, -⟩ := h.append_left hp
    exact List.prefix_append p u
  · rintro ⟨u, rfl⟩
    obtain ⟨t, rfl, -⟩ := h.append_right hp
    exact List.prefix_append p t

end Text.Narrowed

namespace Code

open Text (Narrowed)

/-- Both readers refuse, or they find the same and leave texts of which one is the other narrowed. -/
def Agree {α : Type} : Option (α × Text) → Option (α × Text) → Prop :=
  Option.Rel fun a b => a.1 = b.1 ∧ Narrowed false a.2 b.2

/-! ## Numbers -/

section Numbers
variable {t u : Text}

theorem digits_narrowed {isDigit : Char → Bool} (hd : isDigit '\n' = false) (h : Narrowed false t u) :
    (digits isDigit t).1 = (digits isDigit u).1 ∧ Narrowed false (digits isDigit t).2 (digits isDigit u).2 := by
  induction t generalizing u with
  | nil =>
    rw [h.nil_left]
    exact ⟨rfl, .nil⟩
  | cons c t ih =>
    obtain ⟨u, rfl, htail⟩ := h.cons_left
    cases hc : isDigit c with
    | true =>
      rw [Narrowed.beq_newline_of_true hd hc] at htail
      obtain ⟨hfound, hrest⟩ := ih htail
      rw [digits, digits, hc]
      exact ⟨congrArg (c :: ·) hfound, hrest⟩
    | false =>
      by_cases hunderscore : c = '_'
      · subst hunderscore
        have hhead : t.head? = u.head? := Narrowed.head?_eq htail
        rw [digits, digits, hc, if_neg Bool.false_ne_true, if_neg Bool.false_ne_true, hhead]
        split
        next => exact ih htail
        next => exact ⟨rfl, h⟩
      · have hnone : ∀ v, digits isDigit (c :: v) = ([], c :: v) := by
          intro v
          rw [digits, hc, if_neg Bool.false_ne_true, if_neg fun h => hunderscore h.1]
        rw [hnone, hnone]
        exact ⟨rfl, h⟩

theorem fraction_cons (c : Char) (t : Text) : fraction (c :: t) =
    if c = '.' then if t.head? = some '_' then none else some (true, (digits isDecimal t).2) else some (false, c :: t) := by
  unfold fraction
  split
  next heq => cases heq; rfl
  next hne heq =>
    cases heq
    rw [if_pos rfl, if_neg]
    intro hhead
    obtain ⟨more, rfl⟩ := List.head?_eq_some_iff.mp hhead
    exact hne more rfl
  next hne => rw [if_neg fun hc => hne t (by rw [hc])]

theorem fraction_agree (h : Narrowed false t u) : Agree (fraction t) (fraction u) := by
  cases t with
  | nil =>
    rw [h.nil_left]
    exact .some ⟨rfl, .nil⟩
  | cons c t =>
    obtain ⟨u, rfl, h'⟩ := h.cons_left
    rw [fraction_cons, fraction_cons]
    split
    next hc =>
      subst hc
      have hhead : t.head? = u.head? := Narrowed.head?_eq h'
      rw [hhead]
      split
      next => exact .none
      next => exact .some ⟨rfl, (digits_narrowed rfl h').2⟩
    next => exact .some ⟨rfl, h⟩

/-- The digits of the exponent that `t` begins with. -/
def exponentDigits? : Text → Option Text
  | e :: s :: rest =>
    if e = 'e' ∨ e = 'E' then
      if isDecimal s then some (s :: rest)
      else if (s = '+' ∨ s = '-') ∧ rest.head?.any isDecimal = true then some rest else none
    else none
  | _ => none

theorem exponent_eq (t : Text) : exponent t = match exponentDigits? t with
    | some more => (true, (digits isDecimal more).2)
    | none => (false, t) := by
  match t with
  | [] | [_] => rfl
  | [e, d] =>
    rw [exponent, exponentDigits?]
    have hdigits (hd : isDecimal d = true) : digits isDecimal [d] = ([d], []) := by
      rw [digits, hd]
      rfl
    by_cases he : e = 'e' ∨ e = 'E'
    · cases hd : isDecimal d with
      | true =>
        rw [if_pos ⟨he, rfl⟩, if_pos he, if_pos rfl]
        exact congrArg (fun found => (true, found.2)) (hdigits hd).symm
      | false => simp
    · rw [if_neg fun h => he h.1, if_neg he]
  | e :: s :: d :: rest =>
    rw [exponent, exponentDigits?, List.head?_cons, Option.any_some]
    split
    · split
      · rfl
      · split <;> rfl
    · rfl

theorem exponentDigits?_narrowed (h : Narrowed false t u) :
    Option.Rel (Narrowed false) (exponentDigits? t) (exponentDigits? u) := by
  match t with
  | [] => rw [h.nil_left]; exact .none
  | [e] =>
    obtain ⟨u, rfl, htail⟩ := h.cons_left
    rw [htail.nil_left]
    exact .none
  | e :: s :: rest =>
    obtain ⟨u, rfl, htail⟩ := h.cons_left
    by_cases he : e = 'e' ∨ e = 'E'
    · have hne : e ≠ '\n' := by rintro rfl; revert he; decide
      rw [beq_false_of_ne hne] at htail
      obtain ⟨u, rfl, hrest⟩ := htail.cons_left
      rw [exponentDigits?, exponentDigits?, if_pos he, if_pos he]
      split
      next => exact .some htail
      next =>
        by_cases hs : s = '+' ∨ s = '-'
        · have hne : s ≠ '\n' := by rintro rfl; revert hs; decide
          rw [beq_false_of_ne hne] at hrest
          have hhead : rest.head? = u.head? := hrest.head?_eq
          rw [hhead]
          split
          next => exact .some hrest
          next => exact .none
        · rw [if_neg fun h => hs h.1, if_neg fun h => hs h.1]
          exact .none
    · have hnone : ∀ v, exponentDigits? (e :: v) = none := by
        intro v
        cases v with
        | nil => rfl
        | cons d v => rw [exponentDigits?, if_neg he]
      rw [hnone, hnone]
      exact .none

theorem exponent_narrowed (h : Narrowed false t u) :
    (exponent t).1 = (exponent u).1 ∧ Narrowed false (exponent t).2 (exponent u).2 := by
  rw [exponent_eq, exponent_eq]
  have hdigits := exponentDigits?_narrowed h
  generalize exponentDigits? t = x, exponentDigits? u = y at hdigits ⊢
  cases hdigits with
  | some hdigits => exact ⟨rfl, (digits_narrowed rfl hdigits).2⟩
  | none => exact ⟨rfl, h⟩

/-- What follows a decimal number and the mark of an imaginary one, a mark without which it may be refused. -/
def afterDecimal? (refused : Bool) : Text → Option Text
  | 'j' :: after | 'J' :: after => some after
  | after => if refused then none else some after

theorem afterDecimal?_narrowed (refused : Bool) (h : Narrowed false t u) :
    Option.Rel (Narrowed false) (afterDecimal? refused t) (afterDecimal? refused u) := by
  have hplain : ∀ v w : Text, Narrowed false v w →
      Option.Rel (Narrowed false) (if refused then none else some v) (if refused then none else some w) := by
    intro v w h
    split
    · exact .none
    · exact .some h
  cases t with
  | nil =>
    rw [h.nil_left]
    exact hplain [] [] .nil
  | cons c t =>
    obtain ⟨u, rfl, htail⟩ := h.cons_left
    by_cases hc : c = 'j' ∨ c = 'J'
    · rcases hc with rfl | rfl <;> exact .some htail
    · rw [not_or] at hc
      rw [afterDecimal?, afterDecimal?]
      · exact hplain _ _ h
      all_goals
        rintro _ heq
        cases heq
        simp at hc

theorem decimal_narrowed (h : Narrowed false t u) : Option.Rel (Narrowed false) (decimal t) (decimal u) := by
  unfold decimal
  obtain ⟨hwhole, hafter⟩ := digits_narrowed (show isDecimal '\n' = false from rfl) h
  generalize digits isDecimal t = x, digits isDecimal u = y at hwhole hafter ⊢
  obtain ⟨whole, t⟩ := x
  obtain ⟨_, u⟩ := y
  obtain rfl : whole = _ := hwhole
  have hfraction := fraction_agree hafter
  dsimp only
  generalize fraction t = x, fraction u = y at hfraction ⊢
  cases hfraction with
  | none => exact .none
  | @some x y hfound =>
    obtain ⟨pointed, t⟩ := x
    obtain ⟨_, u⟩ := y
    obtain ⟨rfl, hrest⟩ := hfound
    obtain ⟨hraised, hrest⟩ := exponent_narrowed hrest
    dsimp only
    generalize exponent t = x, exponent u = y at hraised hrest ⊢
    obtain ⟨raised, t⟩ := x
    obtain ⟨_, u⟩ := y
    obtain rfl : raised = _ := hraised
    exact afterDecimal?_narrowed _ hrest

theorem baseDigit?_newline {letter : Char} {isDigit : Char → Bool} (h : baseDigit? letter = some isDigit) :
    letter ≠ '\n' ∧ isDigit '\n' = false := by
  unfold baseDigit? at h
  split at h
  case h_7 => cases h
  all_goals
    cases h
    exact ⟨by decide, by decide⟩

theorem number_of_decimal {t : Text} (h : ∀ letter rest, t = '0' :: letter :: rest → baseDigit? letter = none) :
    number t = decimal t := by
  unfold number
  split
  next letter rest => rw [h letter rest rfl]
  next => rfl

theorem number_narrowed (h : Narrowed false t u) : Option.Rel (Narrowed false) (number t) (number u) := by
  by_cases hbase : ∃ letter rest isDigit, t = '0' :: letter :: rest ∧ baseDigit? letter = some isDigit
  · obtain ⟨letter, rest, isDigit, rfl, hletter⟩ := hbase
    obtain ⟨hne, hnewline⟩ := baseDigit?_newline hletter
    obtain ⟨u, rfl, htail⟩ := h.tail (by decide)
    obtain ⟨u, rfl, hrest⟩ := htail.tail hne
    obtain ⟨hfound, hafter⟩ := digits_narrowed hnewline hrest
    rw [number, number, hletter]
    dsimp only
    rw [hfound]
    split
    · exact .none
    · exact .some hafter
  · have ht : ∀ letter rest, t = '0' :: letter :: rest → baseDigit? letter = none := by
      intro letter rest heq
      cases hletter : baseDigit? letter with
      | none => rfl
      | some isDigit => exact absurd ⟨letter, rest, isDigit, heq, hletter⟩ hbase
    have hu : ∀ letter rest, u = '0' :: letter :: rest → baseDigit? letter = none := by
      rintro letter rest rfl
      obtain ⟨t, rfl, htail⟩ := h.cons_right
      obtain ⟨t, rfl, -⟩ := Narrowed.cons_right htail
      exact ht letter t rfl
    rw [number_of_decimal ht, number_of_decimal hu]
    exact decimal_narrowed h

theorem startsNumber_eq (h : Narrowed false t u) : startsNumber t = startsNumber u := by
  have hdigit : ∀ (c : Char) (v : Text), startsNumber (c :: v) = if c = '.' then v.head?.any isDecimal else isDecimal c := by
    intro c v
    split
    next hc =>
      subst hc
      cases v <;> rfl
    next hc =>
      unfold startsNumber
      split
      next heq => cases heq; exact absurd rfl hc
      next heq => cases heq; rfl
      next heq => cases heq
  cases t with
  | nil => rw [h.nil_left]
  | cons c t =>
    obtain ⟨u, rfl, htail⟩ := h.cons_left
    rw [hdigit, hdigit]
    split
    next hc =>
      subst hc
      have hhead : t.head? = u.head? := Narrowed.head?_eq htail
      rw [hhead]
    next => rfl

end Numbers

/-! ## Openings of strings -/

section Openings
variable {t u : Text}

theorem ne_newline_of_isQuote {q : Char} (hq : isQuote q = true) : q ≠ '\n' := by
  rintro rfl
  revert hq
  decide

theorem ne_backslash_of_isQuote {q : Char} (hq : isQuote q = true) : q ≠ '\\' := by
  rintro rfl
  revert hq
  decide

theorem isMarginChar_of_isQuote {q : Char} (hq : isQuote q = true) : Text.isMarginChar q = false := by
  rw [isQuote, Bool.or_eq_true, beq_iff_eq, beq_iff_eq] at hq
  rcases hq with rfl | rfl <;> rfl

theorem toLower_of_isBlank {c : Char} (h : Text.isBlank c = true) : c.toLower = c := by
  refine dif_neg ?_
  rintro ⟨hfirst, hlast⟩
  simp only [Text.isBlank, Char.toNat, Bool.or_eq_true, Bool.and_eq_true, decide_eq_true_eq, beq_iff_eq] at h
  have hlow : 65 ≤ c.val.toNat := hfirst
  have hhigh : c.val.toNat ≤ 90 := hlast
  omega

theorem isBlank_of_flavour? {letters : Text} {found : Flavour × Bool} (h : flavour? letters = some found) :
    ∀ c ∈ letters, Text.isBlank c = false := by
  have hletters : ∀ c ∈ ['u', 'r', 'b', 'f', 't'], Text.isBlank c = false := by
    simp only [List.forall_mem_cons]
    exact ⟨rfl, rfl, rfl, rfl, rfl, fun _ hnone => by cases hnone⟩
  intro c hmem
  rw [← Bool.not_eq_true]
  intro hblank
  have hlower : c ∈ letters.map Char.toLower := List.mem_map.mpr ⟨c, hmem, toLower_of_isBlank hblank⟩
  rw [hletters c ?_] at hblank
  · cases hblank
  unfold flavour? at h
  split at h
  case h_13 => cases h
  all_goals
    rename_i heq
    rw [heq] at hlower
    grind

theorem notMem_of_flavour? {letters : Text} {found : Flavour × Bool} (h : flavour? letters = some found) :
    '\n' ∉ letters := fun hmem => by cases isBlank_of_flavour? h '\n' hmem

/-- The quotes that a string opens with. -/
def openingQuotes? (flavour : Flavour) (raw : Bool) : Text → Option (StringHead × Text)
  | [] => none
  | q :: rest =>
    if isQuote q then
      if [q, q] <+: rest then some (⟨flavour, raw, q, true⟩, rest.drop 2) else some (⟨flavour, raw, q, false⟩, rest)
    else none

theorem stringHead?_eq (t : Text) : stringHead? t =
    (flavour? ((t.take 2).takeWhile fun c => !isQuote c)).bind fun found =>
      openingQuotes? found.1 found.2 (t.drop ((t.take 2).takeWhile fun c => !isQuote c).length) := by
  unfold stringHead?
  dsimp only
  generalize t.drop _ = rest
  generalize flavour? _ = found
  cases found with
  | none => cases rest <;> rfl
  | some found =>
    cases rest with
    | nil => rfl
    | cons q rest =>
      rw [Option.bind_some, openingQuotes?]
      dsimp only
      split
      next =>
        match rest with
        | [] | [_] => rw [if_neg (by simp [List.prefix_cons_iff])]
        | a :: b :: inner =>
          have hbegins : [q, q] <+: a :: b :: inner ↔ a = q ∧ b = q := by
            rw [List.cons_prefix_cons, List.cons_prefix_cons, and_iff_left List.nil_prefix]
            exact ⟨fun h => ⟨h.1.symm, h.2.symm⟩, fun h => ⟨h.1.symm, h.2.symm⟩⟩
          simp only [hbegins, List.drop_succ_cons, List.drop_zero]
      next => rfl

theorem openingQuotes?_agree {flavour : Flavour} {raw : Bool} (h : Narrowed false t u) :
    Agree (openingQuotes? flavour raw t) (openingQuotes? flavour raw u) := by
  cases t with
  | nil => rw [h.nil_left]; exact .none
  | cons q t =>
    obtain ⟨u, rfl, htail⟩ := h.cons_left
    rw [openingQuotes?, openingQuotes?]
    split
    next hq =>
      have hne := ne_newline_of_isQuote hq
      rw [beq_false_of_ne hne] at htail
      have hquotes : '\n' ∉ [q, q] := by simp [Ne.symm hne]
      rw [if_congr (htail.prefix_iff hquotes) rfl rfl]
      by_cases hbegins : [q, q] <+: u
      · obtain ⟨u, rfl⟩ := hbegins
        obtain ⟨t, rfl, hrest⟩ := htail.append_right hquotes
        rw [if_pos (List.prefix_append ..), if_pos (List.prefix_append ..)]
        exact .some ⟨rfl, hrest⟩
      · rw [if_neg hbegins, if_neg hbegins]
        exact .some ⟨rfl, htail⟩
    next => exact .none

theorem take_two_eq {c : Char} (hc : c ≠ '\n') (h : Narrowed false (c :: t) u) : (c :: t).take 2 = u.take 2 := by
  obtain ⟨u, rfl, htail⟩ := h.tail hc
  have hhead : t.head? = u.head? := htail.head?_eq
  rw [List.take_succ_cons, List.take_succ_cons, List.take_one, List.take_one, hhead]

theorem stringHead?_agree {c : Char} (hc : c ≠ '\n') (h : Narrowed false (c :: t) u) :
    Agree (stringHead? (c :: t)) (stringHead? u) := by
  rw [stringHead?_eq, stringHead?_eq, ← take_two_eq hc h]
  generalize hletters : ((c :: t).take 2).takeWhile (fun c => !isQuote c) = letters
  cases hflavour : flavour? letters with
  | none => exact .none
  | some found =>
    have hbegins : letters <+: c :: t := hletters ▸ (List.takeWhile_prefix _).trans (List.take_prefix ..)
    obtain ⟨t', ht'⟩ := hbegins
    rw [← ht'] at h ⊢
    obtain ⟨u, rfl, hrest⟩ := h.append_left (notMem_of_flavour? hflavour)
    rw [Option.bind_some, Option.bind_some, List.drop_left, List.drop_left]
    exact openingQuotes?_agree hrest

theorem isQuote_of_stringHead? {inner : Text} {head : StringHead} (h : stringHead? t = some (head, inner)) :
    isQuote head.quote = true ∧ inner.length < t.length := by
  rw [stringHead?_eq] at h
  obtain ⟨found, -, hfound⟩ := Option.bind_eq_some_iff.mp h
  generalize hdrop : t.drop _ = opening at hfound
  have hle : opening.length ≤ t.length := by
    rw [← hdrop, List.length_drop]
    exact Nat.sub_le ..
  unfold openingQuotes? at hfound
  split at hfound
  next => cases hfound
  next q rest =>
    rw [List.length_cons] at hle
    split at hfound
    next hq =>
      split at hfound
      next =>
        cases hfound
        exact ⟨hq, by rw [List.length_drop]; omega⟩
      next =>
        cases hfound
        exact ⟨hq, by omega⟩
    next => cases hfound

end Openings

/-! ## Signs -/

theorem dropPrefix?_narrowed {p t u : Text} (hp : '\n' ∉ p) (h : Narrowed false t u) :
    Option.Rel (Narrowed false) (Text.dropPrefix? p t) (Text.dropPrefix? p u) := by
  cases ht : Text.dropPrefix? p t with
  | some t' =>
    obtain rfl := Text.eq_append_of_dropPrefix? ht
    obtain ⟨u, rfl, hrest⟩ := h.append_left hp
    rw [Text.dropPrefix?_append]
    exact .some hrest
  | none =>
    cases hu : Text.dropPrefix? p u with
    | none => exact .none
    | some u' =>
      obtain rfl := Text.eq_append_of_dropPrefix? hu
      obtain ⟨t, rfl, -⟩ := h.append_right hp
      rw [Text.dropPrefix?_append] at ht
      cases ht

theorem sign?_agree {t u : Text} (h : Narrowed false t u) : Agree (sign? t) (sign? u) := by
  have hfound : ∀ l : List String, (∀ s ∈ l, '\n' ∉ s.toList) →
      Agree (l.findSome? fun s => (Text.dropPrefix? s.toList t).map fun rest => (s, rest))
        (l.findSome? fun s => (Text.dropPrefix? s.toList u).map fun rest => (s, rest)) := by
    intro l hl
    induction l with
    | nil => exact .none
    | cons s l ih =>
      obtain ⟨hs, hl⟩ := List.forall_mem_cons.mp hl
      have hfirst := dropPrefix?_narrowed hs h
      rw [List.findSome?_cons, List.findSome?_cons]
      generalize Text.dropPrefix? s.toList t = x, Text.dropPrefix? s.toList u = y at hfirst ⊢
      cases hfirst with
      | some hrest => exact .some ⟨rfl, hrest⟩
      | none => exact ih hl
  exact hfound signs (by decide)

end Code
end Traceback
