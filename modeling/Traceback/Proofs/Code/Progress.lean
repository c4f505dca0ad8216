import Traceback.Proofs.Code.Contents

/-! # The scanner moves on

Every step that the scanner takes reads at least one character, so that it reaches the end of a text in no more steps than
the text has characters.

* `Unicode.CharClass.memFrom_of_within`: one class of characters is part of another one.
* `Scanner.step_shortens`: every step leaves less of the text.
* `Scanner.run_eq_of_length`: fuel for every character is fuel enough.
-/

namespace Traceback
set_option autoImplicit false

/-! ## Classes of characters -/

namespace Unicode.CharClass

/-- Whether, from here on, what belongs to the first class belongs to the second; both are gone through together. -/
def within : (fuel : Nat) → Bool → List Nat → Bool → List Nat → Bool
  | 0, _, _, _, _ => false
  | _ + 1, inside, [], inside', [] => !inside || inside'
  | fuel + 1, inside, _ :: xs, inside', [] => (!inside || inside') && within fuel (!inside) xs inside' []
  | fuel + 1, inside, [], inside', _ :: ys => (!inside || inside') && within fuel inside [] (!inside') ys
  | fuel + 1, inside, x :: xs, inside', y :: ys =>
    (!inside || inside') &&
      if x < y then within fuel (!inside) xs inside' (y :: ys)
      else if y < x then within fuel inside (x :: xs) (!inside') ys
      else within fuel (!inside) xs (!inside') ys

section Changes
variable {n x fuel : Nat} {inside inside' : Bool} {xs ys : List Nat}

theorem memFrom_of_lt (h : n < x) : memFrom n inside (x :: xs) = inside := if_pos h

theorem memFrom_of_le (h : x ≤ n) : memFrom n inside (x :: xs) = memFrom n (!inside) xs := if_neg (Nat.not_lt.mpr h)

/-- By the change that comes first: `n` stands before it, where nothing has changed yet, or behind it. -/
theorem memFrom_of_within (h : within fuel inside xs inside' ys = true) (hmem : memFrom n inside xs = true) :
    memFrom n inside' ys = true := by
  have himp : ∀ {inside inside' b : Bool}, ((!inside || inside') && b) = true → (inside = true → inside' = true) ∧ b = true := by
    decide
  fun_induction within fuel inside xs inside' ys with
  | case1 => cases h
  | case2 =>
    rw [← Bool.and_true (_ || _)] at h
    exact (himp h).1 hmem
  | case3 fuel inside x xs inside' ih =>
    obtain ⟨hinside, hrest⟩ := himp h
    rcases Nat.lt_or_ge n x with hx | hx
    · rw [memFrom_of_lt hx] at hmem
      exact hinside hmem
    · rw [memFrom_of_le hx] at hmem
      exact ih hrest hmem
  | case4 fuel inside inside' y ys ih =>
    obtain ⟨hinside, hrest⟩ := himp h
    rcases Nat.lt_or_ge n y with hy | hy
    · rw [memFrom_of_lt hy]
      exact hinside hmem
    · rw [memFrom_of_le hy]
      exact ih hrest hmem
  | case5 fuel inside x xs inside' y ys ihx ihy ih =>
    obtain ⟨hinside, hrest⟩ := himp h
    rcases Nat.lt_trichotomy x y with hxy | rfl | hyx
    · rw [if_pos hxy] at hrest
      rcases Nat.lt_or_ge n x with hx | hx
      · rw [memFrom_of_lt hx] at hmem
        rw [memFrom_of_lt (hx.trans hxy)]
        exact hinside hmem
      · rw [memFrom_of_le hx] at hmem
        exact ihx hrest hmem
    · rw [if_neg (Nat.lt_irrefl x), if_neg (Nat.lt_irrefl x)] at hrest
      rcases Nat.lt_or_ge n x with hx | hx
      · rw [memFrom_of_lt hx] at hmem ⊢
        exact hinside hmem
      · rw [memFrom_of_le hx] at hmem ⊢
        exact ih hrest hmem
    · rw [if_neg hyx.asymm, if_pos hyx] at hrest
      rcases Nat.lt_or_ge n y with hy | hy
      · rw [memFrom_of_lt (hy.trans hyx)] at hmem
        rw [memFrom_of_lt hy]
        exact hinside hmem
      · rw [memFrom_of_le hy]
        exact ihy hrest hmem

end Changes

end Unicode.CharClass

namespace Code

set_option maxRecDepth 20000 in
theorem Scanner.isWordPart_of_isWordStart {c : Char} (h : isWordStart c = true) : isWordPart c = true := by
  have hwithin : Unicode.CharClass.within 3000 false Unicode.identifierStart.changes false
      Unicode.identifierContinue.changes = true := by decide +kernel
  unfold isWordStart at h
  unfold isWordPart
  split at h
  next hascii =>
    rw [Bool.or_eq_true] at h
    rw [if_pos hascii, Char.isAlphanum, Bool.or_eq_true, Bool.or_eq_true]
    exact h.imp_left Or.inl
  next hascii =>
    rw [if_neg hascii]
    exact Unicode.CharClass.memFrom_of_within hwithin h

/-! ## Literals -/

section Literals
variable {c : Char} {t rest : Text}

theorem decimal_shortens (hstart : startsNumber t = true) (h : decimal t = some rest) : rest.length < t.length := by
  obtain ⟨pointed, after, hfraction, hrest⟩ := decimal_after_fraction h
  refine Nat.lt_of_le_of_lt hrest.length_le ?_
  have hle := (fraction_suffix hfraction).length_le
  cases t with
  | nil => cases hstart
  | cons c t =>
    cases hc : isDecimal c with
    | true =>
      have hdigits : (digits isDecimal (c :: t)).2 = (digits isDecimal t).2 := by rw [digits, hc]; rfl
      rw [hdigits] at hle
      exact Nat.lt_succ_of_le (hle.trans (digits_suffix isDecimal t).length_le)
    | false =>
      -- the number begins with its fraction
      unfold startsNumber at hstart
      split at hstart
      next d more heq =>
        cases heq
        have hdigits : (digits isDecimal ('.' :: d :: more)).2 = '.' :: d :: more := rfl
        have hhead : (d :: more).head? ≠ some '_' := by
          intro heq
          cases heq
          cases hstart
        rw [hdigits, fraction_cons, if_pos rfl, if_neg hhead] at hfraction
        cases hfraction
        exact Nat.lt_succ_of_le (digits_suffix isDecimal (d :: more)).length_le
      next heq =>
        cases heq
        rw [hc] at hstart
        cases hstart
      next heq => cases heq

theorem number_shortens (hstart : startsNumber t = true) (h : number t = some rest) : rest.length < t.length := by
  unfold number at h
  split at h
  next letter more =>
    split at h
    next isDigit _ =>
      dsimp only at h
      split at h
      next => cases h
      next =>
        cases h
        have hle := (digits_suffix isDigit more).length_le
        simp only [List.length_cons]
        omega
    next => exact decimal_shortens hstart h
  next => exact decimal_shortens hstart h

theorem prepend_length_le {first contents : Text} {found : Option (Text × Text)}
    (hfound : ∀ more, found = some (more, rest) → more.length + rest.length ≤ t.length)
    (h : prepend first found = some (contents, rest)) : contents.length + rest.length ≤ first.length + t.length := by
  obtain ⟨more, hmore, rfl⟩ := prepend_eq_some.mp h
  rw [List.length_append, Nat.add_assoc]
  exact Nat.add_le_add_left (hfound more hmore) _

theorem stringText_length_le {head : StringHead} {inFormat named : Bool} {contents : Text}
    (h : stringText head inFormat named t = some (contents, rest)) : contents.length + rest.length ≤ t.length := by
  fun_induction stringText head inFormat named t generalizing contents
  case case1 | case2 | case16 => cases h
  case case9 | case11 | case13 | case15 | case17 =>
    cases h
    exact (Nat.zero_add _).le
  case case3 ih | case4 ih | case5 ih | case6 ih | case7 ih | case8 ih | case10 ih | case12 ih | case14 ih | case18 ih =>
    refine (prepend_length_le (fun _ hmore => ih hmore) h).trans ?_
    simp only [List.length_cons, List.length_nil]
    omega

theorem sign?_shortens {spelling : String} (h : sign? t = some (spelling, rest)) : rest.length < t.length := by
  obtain ⟨s, hs, hfound⟩ := List.exists_of_findSome?_eq_some h
  obtain ⟨rest', hrest, heq⟩ := Option.map_eq_some_iff.mp hfound
  cases heq
  have hpos : ∀ s ∈ signs, 0 < s.toList.length := by decide
  rw [Text.eq_append_of_dropPrefix? hrest, List.length_append]
  exact Nat.lt_add_of_pos_left (hpos _ hs)

end Literals

/-! ## Steps -/

namespace Scanner

theorem rest_of_take {s next : Scanner} {l : Lexeme} {rest : Text} {found : List Token}
    (h : s.take l rest = some (found, next)) : next.rest = rest := by
  cases h
  rfl

theorem rest_of_takeLineEnd {s next : Scanner} {rest : Text} {found : List Token}
    (h : s.takeLineEnd rest = some (found, next)) : next.rest = rest := by
  unfold takeLineEnd at h
  split at h <;> cases h <;> rfl

theorem takeString_shortens {s next : Scanner} {head : StringHead} {inner : Text} {found : List Token}
    (h : s.takeString head inner = some (found, next)) : next.rest.length ≤ inner.length := by
  unfold takeString at h
  split at h
  next =>
    dsimp only at h
    rw [rest_of_take h]
  next =>
    split at h
    next => cases h
    next contents rest hquoted =>
      split at h
      next =>
        rw [rest_of_take h]
        exact (quoted_suffix hquoted).length_le
      next => cases h

theorem rest_of_takeBracket {s next : Scanner} {l : Lexeme} {rest : Text} {found : List Token}
    (h : s.takeBracket l rest = some (found, next)) : next.rest = rest := by
  unfold takeBracket at h
  split at h
  next => exact rest_of_take h
  next =>
    split at h
    next => cases h
    next => exact rest_of_take h
  next => exact rest_of_take h

theorem takeSign_shortens {s next : Scanner} {found : List Token} (h : s.takeSign = some (found, next)) :
    next.rest.length < s.rest.length := by
  unfold takeSign at h
  split at h
  next after hrest =>
    split at h
    next =>
      rw [rest_of_take h, hrest]
      exact Nat.lt_succ_self _
    next =>
      split at h
      next =>
        rw [rest_of_take h, hrest, List.length_cons, List.length_cons]
        omega
      next =>
        rw [rest_of_take h, hrest]
        exact Nat.lt_succ_self _
  next =>
    split at h
    next hsign =>
      rw [rest_of_take h]
      exact sign?_shortens hsign
    next => cases h

theorem takeToken_shortens {s next : Scanner} {c : Char} {after : Text} {found : List Token}
    (hrest : s.rest = c :: after) (h : s.takeToken c after = some (found, next)) :
    next.rest.length < s.rest.length := by
  have hafter : after.length < s.rest.length := by
    rw [hrest]
    exact Nat.lt_succ_self _
  cases takeToken_cases h with
  | lineEnd _ h => rwa [rest_of_takeLineEnd h]
  | lineEnds _ heq h =>
    rw [rest_of_takeLineEnd h]
    rw [heq, List.length_cons] at hafter
    omega
  | comment _ ho =>
    cases ho
    exact Nat.lt_of_le_of_lt (List.dropWhile_suffix _).length_le hafter
  | string hhead h => exact Nat.lt_of_le_of_lt (takeString_shortens h) (isQuote_of_stringHead? hhead).2
  | word hc h =>
    rw [rest_of_take h, hrest, List.dropWhile_cons_of_pos (isWordPart_of_isWordStart hc)]
    exact Nat.lt_succ_of_le (List.dropWhile_suffix _).length_le
  | number hstart hnumber h =>
    rw [rest_of_take h]
    exact number_shortens hstart hnumber
  | bracket _ h => rwa [rest_of_takeBracket h]
  | sign h => exact takeSign_shortens h

/-- **Every step leaves less of the text.** -/
theorem step_shortens {s next : Scanner} {found : List Token} (hrest : s.rest ≠ []) (h : s.step = some (found, next)) :
    next.rest.length < s.rest.length := by
  cases step_cases h with
  | blank _ ho =>
    cases ho
    exact List.length_pos_iff.mpr hrest
  | @token c after hbefore h =>
    have hshorter := takeToken_shortens (s := s.moveTo (c :: after)) rfl h
    exact Nat.lt_of_lt_of_le hshorter (skips_beforeToken hbefore).suffix.length_le
  | stringEnd _ hquotes h =>
    have hlength := congrArg List.length (Text.eq_append_of_dropPrefix? hquotes)
    rw [List.length_append, List.length_replicate] at hlength
    rw [rest_of_take h]
    split at hlength <;> omega
  | stringPart hne htext h =>
    have hlength := stringText_length_le htext
    have hpos := List.length_pos_iff.mpr hne
    rw [rest_of_take h]
    omega

/-- **Fuel for every character is fuel enough.** -/
theorem run_eq_of_length {fuel fuel' : Nat} {s : Scanner} {ts : List Token} (h : s.run fuel = some ts)
    (hfuel : s.rest.length < fuel') : s.run fuel' = some ts := by
  induction fuel generalizing s ts fuel' with
  | zero => cases h
  | succ fuel ih =>
    obtain ⟨fuel', rfl⟩ : ∃ n, fuel' = n + 1 := ⟨fuel' - 1, by omega⟩
    rw [run] at h ⊢
    split at h
    next hempty => rw [if_pos hempty, h]
    next hempty =>
      rw [if_neg hempty]
      split at h
      next => cases h
      next found next hstep =>
        obtain ⟨more, hmore, rfl⟩ := Option.map_eq_some_iff.mp h
        have hshorter := step_shortens (fun heq => hempty (List.isEmpty_iff.mpr heq)) hstep
        exact congrArg (Option.map (found ++ ·)) (ih hmore (by omega))

end Scanner
end Code
end Traceback
