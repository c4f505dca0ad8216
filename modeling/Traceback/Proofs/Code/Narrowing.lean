import Traceback.Proofs.Code.Contents

/-! # Tokens with narrower margins

White space in front of the lines of a text has no say in its tokens as long as it has tokens: the scanner takes the same
steps where there is less of it.

* `Ended`: that the last line of a text is ended, so that no text with tokens is narrowed to nothing.
* `beforeToken_narrowed`: the white space that is skipped in front of a token.
* `Scanner.Mirrors`: what a step finds and where it leads, when it does in the narrowed text what another one does.
* `Scanner.step_mirrored`: every step is taken there as well.
-/

namespace Traceback.Code
set_option autoImplicit false

open Text (Narrowed)

/-! ## Ends of texts -/

/-- A text that is empty or ends with a line end. -/
def Ended (t : Text) : Prop := ∀ c ∈ t.getLast?, c = '\n'

theorem Ended.of_suffix {t rest : Text} (h : Ended t) (hrest : rest <:+ t) : Ended rest := by
  obtain ⟨front, rfl⟩ := hrest
  cases rest with
  | nil => exact fun c hc => by cases hc
  | cons d rest =>
    intro c hc
    exact h c (by rwa [List.getLast?_append_of_ne_nil _ (List.cons_ne_nil _ _)])

theorem Ended.append {t : Text} (hne : t ≠ []) (h : Ended t) (front : Text) : Ended (front ++ t) := by
  unfold Ended
  rwa [List.getLast?_append_of_ne_nil _ hne]

theorem ended_ofLines (lines : List Text) : Ended (Text.ofLines lines) := by
  induction lines with
  | nil => exact fun c hc => by cases hc
  | cons line lines ih =>
    rw [Text.ofLines_cons]
    cases lines with
    | nil => exact fun c hc => by simpa [Text.ofLines] using hc.symm
    | cons next lines =>
      rw [List.append_cons]
      exact ih.append (by simp [Text.ofLines_cons]) _

/-- Nothing but the empty text is narrowed to it. -/
theorem Ended.eq_nil {atStart : Bool} {t u : Text} (h : Ended t) (hn : Narrowed atStart t u) (hu : u = []) : t = [] := by
  induction hn with
  | nil => rfl
  | keep => cases hu
  | @drop c t u hc hn ih =>
    rw [ih (h.of_suffix (List.suffix_cons c t)) hu] at h
    rw [h c rfl] at hc
    cases hc

theorem Ended.isEmpty_eq {atStart : Bool} {t u : Text} (h : Ended t) (hn : Narrowed atStart t u) : t.isEmpty = u.isEmpty := by
  cases t with
  | nil => rw [hn.nil_left]
  | cons c t =>
    cases u with
    | nil => cases h.eq_nil hn rfl
    | cons d u => rfl

/-! ## In front of a token -/

section Before
variable {atStart : Bool} {t u rest : Text}

/-- What is found behind the white space of `u`, when `rest` is found behind that of `t`; none is skipped in `u` if none
is in `t`. -/
def Clears (t rest u : Text) (indented : Bool) (found : Option (Bool × Text)) : Prop :=
  ∃ indented' rest', found = some (indented', rest') ∧ (indented' = true → indented = true) ∧ Narrowed false rest rest' ∧
    (rest.length = t.length → rest'.length = u.length)

theorem or_mono {a b a' b' : Bool} (ha : a' = true → a = true) (hb : b' = true → b = true) :
    (a' || b') = true → (a || b) = true := by
  rw [Bool.or_eq_true, Bool.or_eq_true]
  exact Or.imp ha hb

/-- White space that is skipped in both or in the first text alone. -/
theorem Clears.skip {more v : Text} {indented : Bool} {found : Option (Bool × Text)} (hlength : more.length < t.length)
    (hskips : Skips more rest) (h : Clears more rest v indented found) : Clears t rest u indented found := by
  obtain ⟨indented', rest', hfound, hindented, hrest, -⟩ := h
  have hle := hskips.suffix.length_le
  exact ⟨indented', rest', hfound, hindented, hrest, fun h => by omega⟩

/-- The white space of a line. -/
def isBlank (c : Char) : Bool := c == ' ' || c == '\t' || c == '\x0c'

/-- Characters that begin white space or continue a line. -/
def startsGap (c : Char) : Bool := isBlank c || c == '\\'

theorem isMarginChar_of_isBlank {c : Char} (h : isBlank c = false) : Text.isMarginChar c = false := by
  rw [isBlank, Bool.or_eq_false_iff] at h
  exact h.1

theorem indentation_of_head (continued indented : Bool) (h : ∀ c ∈ t.head?, startsGap c = false) :
    indentation continued indented t = some (continued || indented, t) := by
  have hne : ∀ c more, startsGap c = true → t = c :: more → False := by
    rintro c more hc rfl
    rw [h c rfl] at hc
    cases hc
  rw [indentation]
  all_goals exact fun _ => hne _ _ (by decide)

theorem indentation_narrowed {continued indented continued' indented' found : Bool}
    (hcontinued : continued' = true → continued = true) (hindented : indented' = true → indented = true) (hend : Ended t)
    (h : Narrowed atStart t u) (ht : indentation continued indented t = some (found, rest)) :
    Clears t rest u found (indentation continued' indented' u) := by
  fun_induction indentation continued indented t generalizing atStart continued' indented' u with
  | case1 continued indented more ih | case2 continued indented more ih =>
    have hend := hend.of_suffix (List.suffix_cons _ _)
    have hskips := skips_indentation ht
    cases h with
    | keep h =>
      rw [indentation]
      exact (ih hcontinued (fun _ => rfl) hend h ht).skip (Nat.lt_succ_self _) hskips
    | drop _ h => exact (ih hcontinued (fun _ => rfl) hend h ht).skip (Nat.lt_succ_self _) hskips
  | case3 continued indented more ih =>
    obtain ⟨u, rfl, hrest⟩ := h.kept rfl
    have hend := hend.of_suffix (List.suffix_cons _ _)
    rw [indentation]
    exact (ih hcontinued id hend hrest ht).skip (Nat.lt_succ_self _) (skips_indentation ht)
  | case4 | case6 | case8 | case10 => cases ht
  | case5 continued indented more hmore ih =>
    obtain ⟨u, rfl, hline⟩ := h.escaped
    obtain ⟨u, rfl, hrest⟩ := Narrowed.cons_left hline
    have hend := hend.of_suffix (.trans (List.suffix_cons _ _) (.trans (List.suffix_cons _ _) (List.suffix_cons _ _)))
    rw [indentation, if_neg (hend.isEmpty_eq hrest ▸ hmore)]
    exact (ih (or_mono hcontinued hindented) hindented hend hrest ht).skip (by grind) (skips_indentation ht)
  | case7 continued indented more hline hmore ih =>
    obtain ⟨u, rfl, hrest⟩ := h.escaped
    have hend := hend.of_suffix (.trans (List.suffix_cons _ _) (List.suffix_cons _ _))
    rw [indentation, if_neg (hend.isEmpty_eq hrest ▸ hmore)]
    · exact (ih (or_mono hcontinued hindented) hindented hend hrest ht).skip (by grind) (skips_indentation ht)
    · exact not_followed (by decide) hrest hline
  | case9 continued indented more hmore ih =>
    obtain ⟨u, rfl, hrest⟩ := h.escaped
    have hend := hend.of_suffix (.trans (List.suffix_cons _ _) (List.suffix_cons _ _))
    rw [indentation, if_neg (hend.isEmpty_eq hrest ▸ hmore)]
    exact (ih (or_mono hcontinued hindented) hindented hend hrest ht).skip (by grind) (skips_indentation ht)
  | case11 continued indented t hspace htab hfeed _ _ _ hbackslash =>
    have hhead : ∀ c ∈ t.head?, startsGap c = false := by
      intro c hc
      obtain ⟨more, rfl⟩ := List.head?_eq_some_iff.mp hc
      simp only [startsGap, isBlank, Bool.or_eq_false_iff, beq_eq_false_iff_ne]
      refine ⟨⟨⟨?_, ?_⟩, ?_⟩, ?_⟩
      · exact fun heq => hspace more (by rw [heq])
      · exact fun heq => htab more (by rw [heq])
      · exact fun heq => hfeed more (by rw [heq])
      · exact fun heq => hbackslash more (by rw [heq])
    have hkept : Narrowed false t u := h.of_head? fun c hc => isMarginChar_of_isBlank (Bool.or_eq_false_iff.mp (hhead c hc)).1
    cases ht
    rw [indentation_of_head continued' indented' (hkept.head?_eq ▸ hhead)]
    exact ⟨_, _, rfl, or_mono hcontinued hindented, hkept, fun _ => rfl⟩

/-- White space is skipped in the same way wherever it stands; only at the beginning of a line is it measured. -/
theorem skipBlanks_eq (continued indented : Bool) (t : Text) :
    skipBlanks t = (indentation continued indented t).map (·.2) := by
  fun_induction skipBlanks t generalizing continued indented with
  | case1 more ih | case2 more ih | case3 more ih => rw [indentation, ih]
  | case4 more hmore | case8 more hmore => rw [indentation, if_pos hmore]; rfl
  | case5 more hmore ih | case9 more hmore ih => rw [indentation, if_neg hmore, ih]
  | case6 more hline hmore =>
    rw [indentation, if_pos hmore]
    · rfl
    · exact hline
  | case7 more hline hmore ih =>
    rw [indentation, if_neg hmore, ih]
    exact hline
  | case10 more hreturn hline hfeed =>
    rw [indentation]
    · rfl
    all_goals assumption
  | case11 t =>
    rw [indentation]
    · rfl
    all_goals assumption

theorem holdsNoCode_eq (h : Narrowed false t u) : holdsNoCode t = holdsNoCode u := by
  cases t with
  | nil => rw [h.nil_left]
  | cons c t =>
    obtain ⟨u, rfl, -⟩ := h.cons_left
    rfl

/-- A token that stands behind white space does so when there is less of it. -/
theorem beforeToken_narrowed {fresh : Bool} (hend : Ended t) (h : Narrowed atStart t u)
    (ht : beforeToken fresh t = some rest) :
    ∃ rest', beforeToken fresh u = some rest' ∧ Narrowed false rest rest' ∧
      (rest.length = t.length → rest'.length = u.length) := by
  unfold beforeToken at ht ⊢
  cases fresh with
  | false =>
    rw [if_neg Bool.false_ne_true, skipBlanks_eq false false] at ht ⊢
    obtain ⟨⟨indented, rest⟩, hfound, rfl⟩ := Option.map_eq_some_iff.mp ht
    obtain ⟨indented', rest', hfound', -, hrest, hlength⟩ := indentation_narrowed id id hend h hfound
    exact ⟨rest', by rw [hfound']; rfl, hrest, hlength⟩
  | true =>
    rw [if_pos rfl] at ht ⊢
    cases hfound : indentation false false t with
    | none => simp [hfound] at ht
    | some found =>
      obtain ⟨indented, more⟩ := found
      obtain ⟨indented', rest', hfound', hindented, hrest, hlength⟩ := indentation_narrowed id id hend h hfound
      simp only [hfound, Option.ite_none_left_eq_some, Option.some.injEq] at ht
      obtain ⟨hcode, rfl⟩ := ht
      have hcode' : ¬ (indented' && !holdsNoCode rest') = true := by
        rw [← holdsNoCode_eq hrest, Bool.and_eq_true] at *
        exact fun h => hcode ⟨hindented h.1, h.2⟩
      exact ⟨rest', by rw [hfound']; exact if_neg hcode', hrest, hlength⟩

end Before

/-! ## Steps -/

namespace Scanner

/-- The scanner at the same point of another text. -/
def moved (s : Scanner) (rest : Text) (position : Nat) : Scanner := { s with rest := rest, position := position }

/-- The scanner is among tokens and not in the text of a string. -/
def InCode (s : Scanner) : Prop := ∀ o ∈ s.strings.head?, o.inExpression s.depth = true

/-- All strings in which the scanner is were opened by quotes. -/
def Quoted (s : Scanner) : Prop := ∀ o ∈ s.strings, isQuote o.head.quote = true

/-- A step from `x'` that finds what another one from `x` finds, which leads to `next`. What begins where the other step
does so here as well; between the lines, both scanners are among tokens. -/
inductive Mirrors (x x' : Nat) (next : Scanner) : List Token → List Token × Scanner → Prop where
  | gap {atStart : Bool} {rest : Text} {position : Nat} (hrest : Narrowed atStart next.rest rest)
      (hcode : atStart = true → next.InCode) (hle : x ≤ next.position) (hstays : next.position = x → position = x') :
      Mirrors x x' next [] ([], next.moved rest position)
  | token {atStart : Bool} {rest : Text} {position start start' : Nat} {l : Lexeme}
      (hrest : Narrowed atStart next.rest rest) (hcode : atStart = true → next.InCode) (hle : x ≤ start)
      (hstop : start ≤ next.position) (hstart : start = x → start' = x') :
      Mirrors x x' next [⟨l, start, next.position⟩] ([⟨l, start', position⟩], next.moved rest position)

/-- Whatever the first step does is mirrored by the second. -/
def Mirrored (x x' : Nat) (step step' : Option (List Token × Scanner)) : Prop :=
  ∀ found next, step = some (found, next) → ∃ o, step' = some o ∧ Mirrors x x' next found o

section Steps
variable {s : Scanner} {t u rest rest' : Text} {p : Nat} {l : Lexeme}

theorem Mirrored.none {x x' : Nat} {step' : Option (List Token × Scanner)} : Mirrored x x' none step' := by
  rintro found next ⟨⟩

/-- Behind white space that both skip. -/
theorem Mirrored.after {x y x' y' : Nat} {step step' : Option (List Token × Scanner)} (h : Mirrored y y' step step')
    (hle : x ≤ y) (hstays : y = x → y' = x') : Mirrored x x' step step' := by
  intro found next hstep
  obtain ⟨o, ho, hmirrors⟩ := h found next hstep
  refine ⟨o, ho, ?_⟩
  cases hmirrors with
  | gap hrest hcode hle' hstays' =>
    exact .gap hrest hcode (hle.trans hle') fun h => by
      have hy : y = x := by omega
      rw [hstays' (by omega), hstays hy]
  | token hrest hcode hle' hstop hstart =>
    exact .token hrest hcode (hle.trans hle') hstop fun h => by
      have hy : y = x := by omega
      rw [hstart (by omega), hstays hy]

theorem take_mirrored (s : Scanner) (l : Lexeme) (u : Text) (p : Nat) (h : Narrowed false rest rest') :
    Mirrored s.position p (s.take l rest) ((s.moved u p).take l rest') := by
  rintro found next ⟨⟩
  exact ⟨_, rfl, .token h (fun h => absurd h Bool.false_ne_true) (Nat.le_refl _) (Nat.le_add_right ..) fun _ => rfl⟩

theorem endFormat_of_inExpression {o : OpenString} {depth : Nat} (h : o.inExpression depth = true) :
    o.endFormat depth = o := by
  rw [OpenString.endFormat, OpenString.inFormat, h, Bool.not_true, Bool.and_false]
  rfl

theorem mapInnermost_endFormat (h : s.InCode) : mapInnermost (·.endFormat s.depth) s.strings = s.strings := by
  unfold InCode at h
  cases hstrings : s.strings with
  | nil => rfl
  | cons o outer =>
    rw [hstrings] at h
    exact congrArg (· :: outer) (endFormat_of_inExpression (h o rfl))

theorem takeLineEnd_mirrored {atStart : Bool} (hcode : s.InCode) (hlength : rest.length < s.rest.length)
    (h : Narrowed atStart rest rest') : Mirrored s.position p (s.takeLineEnd rest) ((s.moved u p).takeLineEnd rest') := by
  intro found next hstep
  unfold takeLineEnd at hstep ⊢
  split at hstep
  next hends =>
    cases hstep
    exact ⟨_, if_pos hends, .token h (fun _ => hcode) (Nat.le_refl _) (Nat.le_add_right ..) fun _ => rfl⟩
  next hends =>
    cases hstep
    refine ⟨_, if_neg hends, .gap h (fun _ => ?_) (Nat.le_add_right ..) fun hstays => ?_⟩
    · show ∀ o ∈ (mapInnermost (·.endFormat s.depth) s.strings).head?, o.inExpression s.depth = true
      rw [mapInnermost_endFormat hcode]
      exact hcode
    · have hposition : s.position + (s.rest.length - rest.length) = s.position := hstays
      omega

theorem takeString_mirrored {head : StringHead} {inner inner' : Text} (hq : isQuote head.quote = true)
    (h : Narrowed false inner inner') :
    Mirrored s.position p (s.takeString head inner) ((s.moved u p).takeString head inner') := by
  unfold takeString
  split
  next => exact take_mirrored { s with strings := ⟨head, s.depth, 0⟩ :: s.strings } _ u p h
  next =>
    cases hquoted : quoted head inner with
    | none => exact .none
    | some found =>
      obtain ⟨contents, rest⟩ := found
      obtain ⟨contents', rest', hquoted', hcontents, hrest⟩ := quoted_narrowed hq h hquoted
      rw [hquoted']
      dsimp only
      split
      next hvalid =>
        rw [if_pos (contentsValid_narrowed hcontents hvalid)]
        exact take_mirrored s _ u p hrest
      next => exact .none

theorem takeBracket_mirrored (h : Narrowed false rest rest') :
    Mirrored s.position p (s.takeBracket l rest) ((s.moved u p).takeBracket l rest') := by
  unfold takeBracket
  split
  next => exact take_mirrored { s with depth := s.depth + 1 } _ u p h
  next =>
    show Mirrored _ _ _ (if s.strings.head?.any (·.depth == s.depth) then none else _)
    split
    next => exact .none
    next =>
      exact take_mirrored { s with depth := s.depth - 1, strings := mapInnermost (·.endFormat s.depth) s.strings } _ u p h
  next => exact take_mirrored { s with depth := s.depth - 1 } _ u p h

/-- A colon: the beginning of a format, a part of a longer sign, or a sign. -/
theorem takeSign_colon {after : Text} (hs : s.rest = ':' :: after) : s.takeSign =
    if s.strings.head?.any (·.colonBeginsFormat s.depth) then
      { s with strings := mapInnermost (fun o => { o with formats := o.formats + 1 }) s.strings }.take (.sign ":") after
    else if after.head? = some '=' then s.take (.sign ":=") after.tail else s.take (.sign ":") after := by
  unfold takeSign
  rw [hs]
  split
  next heq =>
    cases heq
    refine if_congr Iff.rfl rfl ?_
    split
    next rest => rfl
    next hne =>
      rw [if_neg]
      intro hhead
      obtain ⟨rest, rfl⟩ := List.head?_eq_some_iff.mp hhead
      exact hne rest rfl
  next hne => exact absurd rfl (hne after)

theorem takeSign_other {c : Char} {after : Text} (hc : c ≠ ':') (hs : s.rest = c :: after) :
    s.takeSign = (sign? (c :: after)).bind fun found => s.take (.sign found.1) found.2 := by
  rw [takeSign, hs]
  split
  next heq =>
    cases heq
    exact absurd rfl hc
  next =>
    cases sign? (c :: after) with
    | none => rfl
    | some found => rfl

theorem takeSign_mirrored {c : Char} {after : Text} (hc : c ≠ '\n') (hs : s.rest = c :: after)
    (h : Narrowed false (c :: after) u) : Mirrored s.position p s.takeSign (s.moved u p).takeSign := by
  obtain ⟨u, rfl, htail⟩ := h.tail hc
  by_cases hcolon : c = ':'
  · subst hcolon
    rw [takeSign_colon hs, takeSign_colon (s := s.moved (':' :: u) p) rfl, htail.head?_eq]
    show Mirrored _ _ _ (if s.strings.head?.any (·.colonBeginsFormat s.depth) then _ else _)
    split
    next =>
      exact take_mirrored
        (Scanner.mk s.rest s.position s.fresh s.depth (mapInnermost (fun o => { o with formats := o.formats + 1 }) s.strings))
        _ _ p htail
    next =>
      split
      next hhead =>
        obtain ⟨u, rfl⟩ := List.head?_eq_some_iff.mp hhead
        obtain ⟨rest, rfl, hrest⟩ := htail.cons_right
        exact take_mirrored s _ _ p hrest
      next => exact take_mirrored s _ _ p htail
  · rw [takeSign_other hcolon hs, takeSign_other (s := s.moved (c :: u) p) hcolon rfl]
    have hsign := sign?_agree h
    generalize sign? (c :: after) = x, sign? (c :: u) = y at hsign ⊢
    cases hsign with
    | none => exact .none
    | @some found found' hfound =>
      obtain ⟨hspelling, hrest⟩ := hfound
      rw [Option.bind_some, Option.bind_some, ← hspelling]
      exact take_mirrored s _ _ p hrest

theorem isWordPart_newline : isWordPart '\n' = false := by decide

/-- What follows a line end that begins with `c`. -/
def afterLineEnd (c : Char) (after : Text) : Text := if c = '\r' ∧ after.head? = some '\n' then after.tail else after

theorem length_afterLineEnd_le (c : Char) (after : Text) : (afterLineEnd c after).length ≤ after.length := by
  rw [afterLineEnd]
  split
  · rw [List.length_tail]
    exact Nat.sub_le ..
  · exact Nat.le_refl _

theorem takeToken_lineEnd {c : Char} (s : Scanner) (after : Text) (hc : isLineEnd c = true) :
    s.takeToken c after = s.takeLineEnd (afterLineEnd c after) := by
  unfold takeToken afterLineEnd
  rw [if_pos hc]
  split
  next rest => rfl
  next hne =>
    rw [if_neg]
    rintro ⟨rfl, hhead⟩
    obtain ⟨rest, rfl⟩ := List.head?_eq_some_iff.mp hhead
    exact hne rest rfl rfl

theorem afterLineEnd_narrowed {c : Char} {after after' : Text} (h : Narrowed (c == '\n') after after') :
    ∃ atStart, Narrowed atStart (afterLineEnd c after) (afterLineEnd c after') := by
  by_cases hc : c = '\r'
  · subst hc
    have hline : Narrowed false after after' := h
    rw [afterLineEnd, afterLineEnd, hline.head?_eq]
    split
    next hhead =>
      obtain ⟨rest', rfl⟩ := List.head?_eq_some_iff.mp hhead.2
      obtain ⟨rest, rfl, hrest⟩ := hline.cons_right
      exact ⟨_, hrest⟩
    next => exact ⟨_, hline⟩
  · rw [afterLineEnd, afterLineEnd, if_neg fun h => hc h.1, if_neg fun h => hc h.1]
    exact ⟨_, h⟩

theorem comment_mirrored {c : Char} {after after' : Text} (hs : s.rest = c :: after) (h : Narrowed false after after') :
    Mirrored s.position p (some ([], s.moveTo (after.dropWhile fun d => !isLineEnd d)))
      (some ([], (s.moved (c :: after') p).moveTo (after'.dropWhile fun d => !isLineEnd d))) := by
  rintro found next ⟨⟩
  refine ⟨_, rfl, .gap (h.dropWhile (by decide)) (fun h => absurd h Bool.false_ne_true) (Nat.le_add_right ..) ?_⟩
  intro hstays
  have hposition : s.position + (s.rest.length - (after.dropWhile fun d => !isLineEnd d).length) = s.position := hstays
  have hlength := (List.dropWhile_suffix (fun d => !isLineEnd d) (l := after)).length_le
  rw [hs, List.length_cons] at hposition
  omega

/-- A comment, or a token that does not end a line. -/
theorem takeToken_mirrored_of_visible {c : Char} {after after' : Text} (hline : isLineEnd c = false)
    (hs : s.rest = c :: after) (h : Narrowed false (c :: after) (c :: after')) :
    Mirrored s.position p (s.takeToken c after) ((s.moved (c :: after') p).takeToken c after') := by
  obtain ⟨_, heq, htail⟩ := h.cons_left
  cases heq
  have hc : c ≠ '\n' := by
    rintro rfl
    cases hline
  rw [beq_false_of_ne hc] at htail
  have hrest' : (s.moved (c :: after') p).rest = c :: after' := rfl
  unfold takeToken
  rw [hline, if_neg Bool.false_ne_true, if_neg Bool.false_ne_true, hs, hrest']
  split
  next => exact comment_mirrored hs htail
  next =>
    have hhead := stringHead?_agree hc h
    cases hfound : stringHead? (c :: after) with
    | some found =>
      have hq := (isQuote_of_stringHead? hfound).1
      rw [hfound] at hhead
      generalize stringHead? (c :: after') = y at hhead ⊢
      cases hhead with
      | @some _ found' hagree =>
        obtain ⟨head, inner⟩ := found
        obtain ⟨_, inner'⟩ := found'
        obtain ⟨rfl, hinner⟩ := hagree
        exact takeString_mirrored hq hinner
    | none =>
      rw [hfound] at hhead
      generalize stringHead? (c :: after') = y at hhead ⊢
      cases hhead
      dsimp only
      rw [startsNumber_eq h, h.takeWhile_eq isWordPart_newline]
      split
      next => exact take_mirrored s _ _ p (h.dropWhile isWordPart_newline)
      next =>
        split
        next =>
          have hnumber := number_narrowed h
          generalize number (c :: after) = x, number (c :: after') = y at hnumber ⊢
          cases hnumber with
          | none => exact .none
          | some hrest => exact take_mirrored s _ _ p hrest
        next =>
          split
          next => exact takeBracket_mirrored htail
          next => exact takeSign_mirrored hc hs h

/-- A token, or a separator, that begins with the same character in both texts. -/
theorem takeToken_mirrored {c : Char} {after after' : Text} (hcode : isLineEnd c = true → s.InCode)
    (hs : s.rest = c :: after) (h : Narrowed false (c :: after) (c :: after')) :
    Mirrored s.position p (s.takeToken c after) ((s.moved (c :: after') p).takeToken c after') := by
  cases hline : isLineEnd c with
  | true =>
    obtain ⟨_, heq, htail⟩ := h.cons_left
    cases heq
    obtain ⟨atStart, hrest⟩ := afterLineEnd_narrowed htail
    have hlength : (afterLineEnd c after).length < s.rest.length := by
      rw [hs]
      exact Nat.lt_succ_of_le (length_afterLineEnd_le c after)
    rw [takeToken_lineEnd _ _ hline, takeToken_lineEnd _ _ hline]
    exact takeLineEnd_mirrored (hcode hline) hlength hrest
  | false => exact takeToken_mirrored_of_visible hline hs h

theorem stepCode_mirrored {atStart : Bool} (hend : Ended s.rest) (h : Narrowed atStart s.rest u)
    (hcode : ∀ rest, beforeToken s.fresh s.rest = some rest → ∀ c ∈ rest.head?, isLineEnd c = true → s.InCode) :
    Mirrored s.position p s.stepCode (s.moved u p).stepCode := by
  unfold stepCode
  cases hbefore : beforeToken s.fresh s.rest with
  | none => exact .none
  | some rest =>
    obtain ⟨rest', hbefore', hrest, hlength⟩ := beforeToken_narrowed hend h hbefore
    have hskips := (skips_beforeToken hbefore).suffix.length_le
    -- where the first scanner skips nothing, nor does the second
    have hstays : s.position + (s.rest.length - rest.length) = s.position →
        p + (u.length - rest'.length) = p := by
      intro heq
      have hsame := hlength (by omega)
      omega
    rw [show beforeToken (s.moved u p).fresh (s.moved u p).rest = some rest' from hbefore']
    dsimp only
    cases rest with
    | nil =>
      rw [hrest.nil_left] at hstays ⊢
      rintro found next ⟨⟩
      exact ⟨_, rfl, .gap .nil (fun h => absurd h Bool.false_ne_true) (Nat.le_add_right ..) hstays⟩
    | cons c after =>
      obtain ⟨after', rfl, -⟩ := hrest.cons_left
      exact (takeToken_mirrored (s := s.moveTo (c :: after)) (hcode _ hbefore c rfl) rfl hrest).after (Nat.le_add_right ..)
        hstays

theorem beforeToken_of_head {fresh : Bool} {c : Char} (hc : startsGap c = false) (h : beforeToken fresh (c :: t) = some rest) :
    rest = c :: t := by
  have hindentation (continued indented : Bool) :
      indentation continued indented (c :: t) = some (continued || indented, c :: t) :=
    indentation_of_head _ _ fun d hd => by cases hd; exact hc
  unfold beforeToken at h
  rw [skipBlanks_eq false false, hindentation] at h
  cases fresh <;> cases h <;> rfl

theorem visible_of_isQuote {c : Char} (hc : isQuote c = true) : startsGap c = false ∧ isLineEnd c = false := by
  rw [isQuote, Bool.or_eq_true, beq_iff_eq, beq_iff_eq] at hc
  rcases hc with rfl | rfl <;> exact ⟨rfl, rfl⟩

theorem prepend_ne_nil {c : Char} {first : Text} {found : Option (Text × Text)} :
    prepend (c :: first) found ≠ some ([], rest) := by
  intro h
  obtain ⟨more, -, heq⟩ := prepend_eq_some.mp h
  cases heq

/-- Where the text of a string stops at once, it stops at a brace or at a quote. -/
theorem head_of_stringText {head : StringHead} {inFormat named : Bool} (hq : isQuote head.quote = true)
    (h : stringText head inFormat named t = some ([], rest)) :
    ∃ c more, t = c :: more ∧ startsGap c = false ∧ isLineEnd c = false := by
  fun_induction stringText head inFormat named t
  case case1 | case2 | case16 => cases h
  case case9 | case11 | case13 | case15 => exact ⟨_, _, rfl, rfl, rfl⟩
  case case17 hclosing =>
    obtain ⟨rfl, -⟩ := hclosing
    exact ⟨_, _, rfl, visible_of_isQuote hq⟩
  all_goals exact absurd h prepend_ne_nil

theorem step_of_inCode (h : s.InCode) : s.step = s.stepCode := by
  unfold InCode at h
  unfold step
  split
  next => rfl
  next o outer hstrings =>
    rw [hstrings] at h
    exact if_pos (h o rfl)

/-- In the text of a string, a step takes the closing quotes or a stretch of the text, when there is one. -/
theorem step_mirrored_of_text (hquoted : s.Quoted) (hend : Ended s.rest) (hin : ¬ s.InCode) (h : Narrowed false s.rest u) :
    Mirrored s.position p s.step (s.moved u p).step := by
  obtain ⟨o, outer, hstrings, hexpression⟩ : ∃ o outer, s.strings = o :: outer ∧ ¬ o.inExpression s.depth = true := by
    unfold InCode at hin
    cases hstrings : s.strings with
    | nil => exact absurd (by simp [hstrings]) hin
    | cons o outer => exact ⟨o, outer, rfl, by simpa [hstrings] using hin⟩
  have hq : isQuote o.head.quote = true := hquoted o (hstrings ▸ List.mem_cons_self ..)
  have hclosing : Option.Rel (Narrowed false) (closingQuotes? o.head s.rest) (closingQuotes? o.head u) :=
    dropPrefix?_narrowed (fun hmem => ne_newline_of_isQuote hq (List.eq_of_mem_replicate hmem).symm) h
  unfold step
  rw [show (s.moved u p).strings = s.strings from rfl, show (s.moved u p).depth = s.depth from rfl,
    show (s.moved u p).rest = u from rfl, hstrings]
  dsimp only
  rw [if_neg hexpression, if_neg hexpression]
  generalize closingQuotes? o.head s.rest = x, closingQuotes? o.head u = y at hclosing ⊢
  cases hclosing with
  | some hrest => exact take_mirrored { s with strings := outer } _ _ p hrest
  | none =>
    dsimp only
    cases htext : stringText o.head (o.inFormat s.depth) false s.rest with
    | none => exact .none
    | some found =>
      obtain ⟨contents, rest⟩ := found
      obtain ⟨contents', rest', htext', hcontents, hrest⟩ := stringText_narrowed hq h htext
      rw [htext']
      cases contents with
      | nil =>
        rw [hcontents.nil_left]
        -- the text stops at a brace or at a quote, so that no line ends here
        obtain ⟨c, more, hs, hgap, hline⟩ := head_of_stringText hq htext
        refine stepCode_mirrored hend h fun rest hbefore d hd hlineEnd => ?_
        rw [hs] at hbefore
        rw [beforeToken_of_head hgap hbefore] at hd
        cases hd
        rw [hline] at hlineEnd
        cases hlineEnd
      | cons c contents =>
        obtain ⟨contents', rfl, -⟩ := hcontents.cons_left
        dsimp only
        have hescapes : (o.head.raw || escapesValid true (c :: contents)) = true →
            (o.head.raw || escapesValid true (c :: contents')) = true := by
          rw [Bool.or_eq_true, Bool.or_eq_true]
          exact Or.imp_right (escapesValid_narrowed hcontents)
        split
        next hvalid =>
          rw [if_pos (hescapes hvalid)]
          exact take_mirrored s _ _ p hrest
        next => exact .none

/-- **A step is taken as well where the lines of a text have narrower margins.** -/
theorem step_mirrored {atStart : Bool} (hquoted : s.Quoted) (hend : Ended s.rest) (hcode : atStart = true → s.InCode)
    (h : Narrowed atStart s.rest u) : Mirrored s.position p s.step (s.moved u p).step := by
  by_cases hin : s.InCode
  · rw [step_of_inCode hin, step_of_inCode (s := s.moved u p) hin]
    exact stepCode_mirrored hend h fun _ _ _ _ _ => hin
  · have hfalse : atStart = false := Bool.eq_false_iff.mpr fun h => hin (hcode h)
    exact step_mirrored_of_text hquoted hend hin (hfalse ▸ h)

end Steps
end Scanner
end Traceback.Code
