import Traceback.Proofs.Code.Expression
import Traceback.Proofs.Code.Progress

/-! # Outlines in their text

The places that an outline tells are those of tokens, and tokens stand in the text in the order in which they are read.

* `exists_visible`: of the text up to a token that an expression may begin with, some character is no blank.
* `place_of_tokens`: tokens stand behind those in front of them, and within the text.
* `tokens_of_operation`, `tokens_of_subscript`: the tokens of a text, by the places that its outline tells.
* `subscript_written`: the text of a subscript, as `SubscriptAt` tells it by the same places.
* `Outline.fits`, `fits_of_outline?`: the places that an outline tells stand in the text, in order.
-/

namespace Traceback.Code
set_option autoImplicit false

/-! ## Visible characters -/

section Visible
variable {c : Char}

theorem isBlank_of_ascii {p : Char → Bool}
    (h : ∀ n < 128, p (Char.ofNat n) = true → Text.isBlank (Char.ofNat n) = false) (hc : p c = true)
    (hascii : c.toNat < 128) : Text.isBlank c = false := by
  have hn := h c.toNat hascii
  rw [Char.ofNat_toNat] at hn
  exact hn hc

theorem isBlank_of_isWordStart (h : Scanner.isWordStart c = true) : Text.isBlank c = false := by
  have hascii : ∀ n < 128, Scanner.isWordStart (Char.ofNat n) = true → Text.isBlank (Char.ofNat n) = false := by
    decide +kernel
  have hblanks : ∀ n ∈ [0x85, 0xA0, 0x1680, 0x2028, 0x2029, 0x202F, 0x205F, 0x3000] ++ List.range' 0x2000 11,
      Unicode.CharClass.memFrom n false Unicode.identifierStart.changes = false := by decide +kernel
  rcases Nat.lt_or_ge c.toNat 128 with hlt | hge
  · exact isBlank_of_ascii hascii h hlt
  rw [Scanner.isWordStart, if_neg (Nat.not_lt.mpr hge), Unicode.CharClass.mem] at h
  rw [← Bool.not_eq_true]
  intro hblank
  simp only [Text.isBlank, Bool.or_eq_true, Bool.and_eq_true, decide_eq_true_eq, beq_iff_eq] at hblank
  rw [hblanks c.toNat (by simp; omega)] at h
  cases h

theorem isBlank_of_isDecimal (h : isDecimal c = true) : Text.isBlank c = false := by
  have hascii : ∀ n < 128, isDecimal (Char.ofNat n) = true → Text.isBlank (Char.ofNat n) = false := by decide +kernel
  refine isBlank_of_ascii hascii h ?_
  rw [isDecimal, Bool.and_eq_true, decide_eq_true_eq, decide_eq_true_eq] at h
  have hhigh : c.toNat ≤ 57 := h.2
  omega

theorem isBlank_of_startsNumber {after : Text} (h : startsNumber (c :: after) = true) : Text.isBlank c = false := by
  unfold startsNumber at h
  split at h
  next heq =>
    cases heq
    rfl
  next heq =>
    cases heq
    exact isBlank_of_isDecimal h
  next heq => cases heq

theorem isBlank_of_isQuote (h : isQuote c = true) : Text.isBlank c = false := by
  rw [isQuote, Bool.or_eq_true, beq_iff_eq, beq_iff_eq] at h
  rcases h with rfl | rfl <;> rfl

theorem isBlank_of_stringHead? {after inner : Text} {head : StringHead}
    (h : stringHead? (c :: after) = some (head, inner)) : Text.isBlank c = false := by
  rw [stringHead?_eq] at h
  obtain ⟨found, hletters, hopening⟩ := Option.bind_eq_some_iff.mp h
  cases hc : isQuote c with
  | true => exact isBlank_of_isQuote hc
  | false =>
    refine isBlank_of_flavour? hletters c ?_
    rw [List.take_succ_cons, List.takeWhile_cons_of_pos (by rw [hc]; rfl)]
    exact List.mem_cons_self

theorem isBlank_of_bracket? {l : Lexeme} (h : bracket? c = some l) : Text.isBlank c = false := by
  unfold bracket? at h
  split at h <;> cases h <;> rfl

theorem isBlank_of_sign? {after rest : Text} {spelling : String} (h : sign? (c :: after) = some (spelling, rest)) :
    Text.isBlank c = false := by
  have hsigns : ∀ s ∈ signs, s.toList.head?.any (fun c => !Text.isBlank c) = true := by decide +kernel
  obtain ⟨s, hs, hfound⟩ := List.exists_of_findSome?_eq_some h
  obtain ⟨rest', hrest, heq⟩ := Option.map_eq_some_iff.mp hfound
  have htext := Text.eq_append_of_dropPrefix? hrest
  have hhead := hsigns s hs
  cases hspelling : s.toList with
  | nil =>
    rw [hspelling] at hhead
    cases hhead
  | cons d word =>
    rw [hspelling] at htext hhead
    cases htext
    simpa using hhead

end Visible

/-! ## Visible tokens -/

namespace Scanner

theorem isBlank_of_takeSign {s : Scanner} {c : Char} {after : Text} {o : List Token × Scanner}
    (hrest : s.rest = c :: after) (h : s.takeSign = some o) : Text.isBlank c = false := by
  unfold takeSign at h
  rw [hrest] at h
  split at h
  next heq =>
    cases heq
    rfl
  next =>
    split at h
    next hsign => exact isBlank_of_sign? hsign
    next => cases h

theorem lexeme_of_take {s next : Scanner} {l : Lexeme} {rest : Text} {found : List Token}
    (h : s.take l rest = some (found, next)) : ∀ token ∈ found, token.lexeme = l := by
  cases h
  simp

theorem lexeme_of_takeLineEnd {s next : Scanner} {rest : Text} {found : List Token}
    (h : s.takeLineEnd rest = some (found, next)) : ∀ token ∈ found, token.lexeme = .lineEnd := by
  unfold takeLineEnd at h
  split at h <;> cases h <;> simp

/-- What an expression may begin with does not begin with a blank. -/
theorem isBlank_of_takeToken {s next : Scanner} {c : Char} {after : Text} {found : List Token} {token : Token}
    (hrest : s.rest = c :: after) (h : s.takeToken c after = some (found, next)) (htoken : token ∈ found)
    (hl : startsExpression token.lexeme = true) : Text.isBlank c = false := by
  cases takeToken_cases h with
  | lineEnd _ h | lineEnds _ _ h =>
    rw [lexeme_of_takeLineEnd h token htoken] at hl
    cases hl
  | comment _ ho =>
    cases ho
    cases htoken
  | string hhead _ => exact isBlank_of_stringHead? (hrest ▸ hhead)
  | word hc _ => exact isBlank_of_isWordStart hc
  | number hstart _ _ => exact isBlank_of_startsNumber (hrest ▸ hstart)
  | bracket hbracket _ => exact isBlank_of_bracket? hbracket
  | sign h => exact isBlank_of_takeSign hrest h

theorem Takes.moved {position : Nat} {t : Text} {found : List Token} {next : Scanner} (h : Takes position t found next) :
    ∃ word, t = word ++ next.rest ∧ next.position = position + word.length ∧
      ∀ token ∈ found, token.stop = next.position := by
  cases h with
  | gap _ hrest hposition => exact ⟨_, hrest, hposition, by simp⟩
  | token _ _ hrest hposition => exact ⟨_, hrest, by rw [hposition, List.length_append, Nat.add_assoc], by simp⟩

theorem exists_visible_of_step {s next : Scanner} {found : List Token} {token : Token}
    (h : s.step = some (found, next)) (htoken : token ∈ found) (hl : startsExpression token.lexeme = true) :
    ∃ c ∈ s.rest.take (token.stop - s.position), Text.isBlank c = false := by
  cases step_cases h with
  | blank _ ho =>
    cases ho
    cases htoken
  | @token c after hbefore h =>
    obtain ⟨gap, hrest, -⟩ := skips_beforeToken hbefore
    obtain ⟨word, hword, hposition, hstop⟩ := (takes_takeToken rfl h).moved
    have hshorter := takeToken_shortens (s := s.moveTo (c :: after)) rfl h
    refine ⟨c, ?_, isBlank_of_takeToken (s := s.moveTo (c :: after)) rfl h htoken hl⟩
    have hlength := congrArg List.length hword
    rw [List.length_append] at hlength
    rw [hstop token htoken, hposition, moveTo_position hrest, hrest, List.take_append]
    refine List.mem_append_right _ ?_
    obtain ⟨k, hk⟩ : ∃ k, s.position + gap.length + word.length - s.position - gap.length = k + 1 := by
      have hrest' : (s.moveTo (c :: after)).rest = c :: after := rfl
      rw [hrest'] at hshorter hlength
      exact ⟨word.length - 1, by omega⟩
    rw [hk]
    exact List.mem_cons_self
  | stringEnd _ _ h | stringPart _ _ h =>
    rw [lexeme_of_take h token htoken] at hl
    cases hl

theorem exists_visible_of_run {fuel : Nat} {s : Scanner} {ts : List Token} {token : Token} (h : s.run fuel = some ts)
    (htoken : token ∈ ts) (hl : startsExpression token.lexeme = true) :
    ∃ c ∈ s.rest.take (token.stop - s.position), Text.isBlank c = false := by
  induction fuel generalizing s ts with
  | zero => cases h
  | succ fuel ih =>
    rw [run] at h
    split at h
    next =>
      unfold finish at h
      split at h
      next =>
        cases h
        split at htoken
        all_goals
          simp only [List.mem_cons, List.not_mem_nil, or_false] at htoken
          rcases htoken with rfl | rfl <;> cases hl
      next => cases h
    next =>
      split at h
      next => cases h
      next found next hstep =>
        obtain ⟨more, hmore, rfl⟩ := Option.map_eq_some_iff.mp h
        rcases List.mem_append.mp htoken with htoken | htoken
        · exact exists_visible_of_step hstep htoken hl
        · obtain ⟨c, hc, hblank⟩ := ih hmore htoken
          obtain ⟨word, hword, hposition, -⟩ := (step_takes hstep).moved
          refine ⟨c, ?_, hblank⟩
          rw [hword, List.take_append, Nat.sub_sub, ← hposition]
          exact List.mem_append_right _ hc

end Scanner

/-- **Where an expression begins something can be seen.** -/
theorem exists_visible {t : Text} {ts : List Token} {token : Token} (h : tokens t = some ts) (htoken : token ∈ ts)
    (hl : startsExpression token.lexeme = true) : ∃ c ∈ t.take token.stop, Text.isBlank c = false := by
  unfold tokens at h
  split at h
  next rest =>
    obtain ⟨c, hc, hblank⟩ := Scanner.exists_visible_of_run h htoken hl
    refine ⟨c, ?_, hblank⟩
    rw [← List.singleton_append, List.take_append]
    exact List.mem_append_right _ hc
  next => exact Scanner.exists_visible_of_run h htoken hl

/-! ## The order of tokens -/

theorem Written.bounds {position : Nat} {t : Text} {ts : List Token} (h : Written position t ts) :
    ∀ token ∈ ts, position ≤ token.start ∧ token.start ≤ token.stop ∧ token.stop ≤ position + t.length := by
  induction h with
  | nil => exact fun _ h => absurd h List.not_mem_nil
  | cons hgap hword h ih =>
    simp only [List.forall_mem_cons, List.length_append]
    refine ⟨by omega, fun token htoken => ?_⟩
    have hbounds := ih token htoken
    omega

/-- **Tokens stand behind those in front of them**, and within the text. -/
theorem place_of_tokens {t : Text} {front rest : List Token} (h : tokens t = some (front ++ rest)) (hfront : front ≠ [])
    {token : Token} (htoken : token ∈ rest) :
    endOf front ≤ token.start ∧ token.start ≤ token.stop ∧ token.stop ≤ t.length := by
  obtain ⟨init, last, rfl⟩ := (List.eq_nil_or_concat front).resolve_left hfront
  rw [List.concat_eq_append] at h ⊢
  rw [endOf_append_singleton]
  obtain ⟨mark, t, rfl, -, hwritten⟩ := tokens_written h
  rw [List.append_assoc] at hwritten
  obtain ⟨before, word, t, rfl, -, hlast, hrest⟩ := hwritten.find
  have hbounds := hrest.bounds token htoken
  simp only [List.length_append] at hlast hbounds ⊢
  omega

/-- The text up to the end of some tokens has something visible in it when an expression begins with them. -/
theorem exists_visible_of_begins {t : Text} {front ts rest : List Token} {start : Nat}
    (h : tokens t = some (front ++ ts ++ rest)) (hts : Begins start ts) :
    ∃ c ∈ t.take (endOf (front ++ ts)), Text.isBlank c = false := by
  obtain ⟨first, more, rfl, -, hl⟩ := hts
  have hfirst : first ∈ front ++ first :: more ++ rest := by simp
  obtain ⟨c, hc, hblank⟩ := exists_visible h hfirst hl
  refine ⟨c, List.take_subset_take_left t ?_ hc, hblank⟩
  rw [endOf_append _ (List.cons_ne_nil _ _)]
  obtain rfl | ⟨init, last, rfl⟩ := List.eq_nil_or_concat more
  · exact Nat.le_refl _
  · rw [List.concat_eq_append] at h ⊢
    have hlater : tokens t = some ((front ++ [first]) ++ (init ++ last :: rest)) := by
      rw [h]
      simp only [List.append_assoc, List.cons_append, List.nil_append]
    have hplace := place_of_tokens hlater (List.concat_ne_nil first front) (List.mem_append_right _ List.mem_cons_self)
    rw [endOf_append_singleton] at hplace
    rw [← List.cons_append, endOf_append_singleton]
    omega

/-! ## Outlines -/

theorem outline?_eq_some_iff {t : Text} {o : Outline} : outline? t = some o ↔ ∃ ts e c, tokens t = some ts ∧
    (wholeExpression (fuelFor ts)).run ⟨ts, 0⟩ = some (e, c) ∧ Outline.ofNode e = o := by
  simp only [outline?, Option.bind_eq_bind, Option.bind_eq_some_iff, Prod.exists, Option.pure_def, Option.some.injEq]
  constructor
  · rintro ⟨ts, hts, e, c, hrun, rfl⟩
    exact ⟨ts, e, c, hts, hrun, rfl⟩
  · rintro ⟨ts, e, c, hts, hrun, rfl⟩
    exact ⟨ts, hts, e, c, hrun, rfl⟩

theorem Outline.shape_of_operation {e : Node} {left right : Nat} (h : ofNode e = .operation left right) :
    e.shape = .operation left right := by
  obtain ⟨shape, start, stop, grouped, assignable⟩ := e
  cases shape <;> simp_all [ofNode]

theorem Outline.shape_of_subscript {e : Node} {base stop : Nat} (h : ofNode e = .subscript base stop) :
    e.shape = .subscript base ∧ e.stop = stop := by
  obtain ⟨shape, start, stop', grouped, assignable⟩ := e
  cases shape <;> simp_all [ofNode]

/-- Behind an expression that is all of a text come tokens that are none of it. -/
theorem reads_wholeExpression (n : Nat) (before : List Token → Prop) : Reads before (wholeExpression n) fun e =>
    Behind (Behind before fun ts => ∃ start, e.Fills start ts) fun _ => True := by
  rw [wholeExpression]
  refine (((reading n).expressionList .plain).reads before).bind fun e => ?_
  refine (Steps.frame _).bind fun _ => reads_peek.bind fun next => (reads_require _).bind fun _ => ?_
  exact Reads.pure fun _ h => h

/-- An expression that is all of a text is made of some of its tokens. -/
theorem tokens_of_outline? {t : Text} {o : Outline} (h : outline? t = some o) :
    ∃ e front core rest, tokens t = some (front ++ core ++ rest) ∧ Node.Spans e core ∧ Outline.ofNode e = o := by
  obtain ⟨ts, e, c, hts, hrun, hnode⟩ := outline?_eq_some_iff.mp h
  obtain ⟨read, hread, -, _, more, rfl, ⟨first, _, rfl, -, -, -, front, core, closers, rfl, -, hcore⟩, -⟩ :=
    reads_wholeExpression _ (fun _ => True) [] ⟨ts, 0⟩ rfl trivial e c hrun
  refine ⟨e, first ++ front, core, closers ++ more ++ c.ahead, ?_, hcore, hnode⟩
  rw [hts, show ts = _ from hread]
  simp only [List.append_assoc]

/-- **The tokens of an operation.** The left operand stops at `left`, and behind it a token starts at `right`. -/
theorem tokens_of_operation {t : Text} {left right : Nat} (h : outline? t = some (.operation left right)) :
    ∃ front start operand rest, tokens t = some (front ++ operand ++ rest) ∧ Begins start operand ∧
      endOf operand = left ∧ ∃ token ∈ rest, token.start = right := by
  obtain ⟨e, front, core, after, htokens, hcore, hnode⟩ := tokens_of_outline? h
  obtain ⟨start, operand, rest, rfl, hbegins, hleft, token, htoken, hright⟩ :=
    hcore.operation left right (Outline.shape_of_operation hnode)
  refine ⟨front, start, operand, rest ++ after, ?_, hbegins, hleft, token, List.mem_append_left _ htoken, hright⟩
  rw [htokens]
  simp only [List.append_assoc]

/-- **The tokens of a subscript.** The value stops at `base`; then come brackets that close groupings of the value,
and the brackets of the subscript, the last of which stops at `stop`. -/
theorem tokens_of_subscript {t : Text} {base stop : Nat} (h : outline? t = some (.subscript base stop)) :
    ∃ front start value closers opening inside closing rest,
      tokens t = some (front ++ value ++ closers ++ opening :: inside ++ closing :: rest) ∧ Begins start value ∧
        endOf value = base ∧ Closers closers ∧ opening.lexeme = .opening .square ∧ closing.lexeme = .closing .square ∧
        closing.stop = stop := by
  obtain ⟨e, front, core, rest, htokens, hcore, hnode⟩ := tokens_of_outline? h
  obtain ⟨hshape, hstop⟩ := Outline.shape_of_subscript hnode
  obtain ⟨start, value, closers, opening, inside, closing, rfl, hbegins, hbase, hclosers, hopening, hclosing⟩ :=
    hcore.subscript base hshape
  refine ⟨front, start, value, closers, opening, inside, closing, rest, ?_, hbegins, hbase, hclosers, hopening, hclosing,
    ?_⟩
  · rw [htokens]
    simp only [List.append_assoc, List.cons_append, List.nil_append]
  · rw [← hstop, ← hcore.stop_eq, endOf_append_singleton]

/-- In front of an opening bracket, brackets that close groupings stand between gaps. -/
theorem Written.closers {position : Nat} {t : Text} {token : Token} {ts ts' : List Token} (hclosers : Closers ts)
    (htoken : token.lexeme = .opening .square) (h : Written position t (ts ++ token :: ts')) :
    ∃ gaps rest, t = Text.joined [')'] gaps ++ '[' :: rest ∧ gaps ≠ [] ∧ (∀ gap ∈ gaps, Gap gap) ∧
      Written (position + (Text.joined [')'] gaps).length + 1) rest ts' := by
  have hopen : bracket? '[' = some (.opening .square) := rfl
  have hclose : bracket? ')' = some (.closing .round) := rfl
  induction ts generalizing position t with
  | nil =>
    obtain ⟨gap, word, rest, rfl, hgap, hword, hstop, hrest⟩ := h.uncons
    obtain rfl := (spells_iff_of_bracket? hopen).mp (htoken ▸ hword)
    refine ⟨[gap], rest, by simp [Text.joined], List.cons_ne_nil _ _, by simpa using hgap, ?_⟩
    rw [hstop, List.length_append, ← Nat.add_assoc] at hrest
    exact hrest
  | cons closer ts ih =>
    obtain ⟨hcloser, hclosers⟩ := List.forall_mem_cons.mp hclosers
    obtain ⟨gap, word, rest, rfl, hgap, hword, hstop, hrest⟩ := h.uncons
    obtain rfl := (spells_iff_of_bracket? hclose).mp (hcloser ▸ hword)
    obtain ⟨gaps, rest, rfl, hne, hgaps, hrest⟩ := ih hclosers hrest
    refine ⟨gap :: gaps, rest, ?_, List.cons_ne_nil _ _, List.forall_mem_cons.mpr ⟨hgap, hgaps⟩, ?_⟩
    · rw [Text.joined_cons _ _ hne]
      simp only [List.append_assoc]
    · rw [Text.joined_cons _ _ hne, List.length_append, ← Nat.add_assoc position, ← hstop]
      exact hrest

/-- How a subscript stands in a text: the value, which stops at `base` without the brackets that group it, those of these
brackets that close, with gaps between them, and the brackets of the subscript, the last of which stops at `stop`. -/
structure SubscriptAt (t : Text) (base stop : Nat) (value : Text) (gaps : List Text) (inside after : Text) : Prop where
  text_eq : t = value ++ Text.joined [')'] gaps ++ '[' :: inside ++ ']' :: after
  base_eq : value.length = base
  stop_eq : stop = base + (Text.joined [')'] gaps).length + inside.length + 2
  gaps_ne_nil : gaps ≠ []
  gaps : ∀ gap ∈ gaps, Gap gap
  visible : ∃ c ∈ value, Text.isBlank c = false

/-- **The text of a subscript**, by the places that its outline tells. -/
theorem subscript_written {t : Text} {base stop : Nat} (h : outline? t = some (.subscript base stop)) :
    ∃ value gaps inside after, SubscriptAt t base stop value gaps inside after := by
  obtain ⟨before, start, ts, closers, opening, inside, closing, rest, htokens, hbegins, hbase, hclosers, hopening,
    hclosing, hstop⟩ := tokens_of_subscript h
  have hvalue : tokens t = some (before ++ ts ++ (closers ++ opening :: inside ++ closing :: rest)) := by
    rw [htokens]
    simp only [List.append_assoc]
  obtain ⟨c, hc, hblank⟩ := exists_visible_of_begins hvalue hbegins
  rw [endOf_append _ hbegins.ne_nil, hbase] at hc
  obtain ⟨init, last, rfl⟩ := (List.eq_nil_or_concat ts).resolve_left hbegins.ne_nil
  rw [List.concat_eq_append] at htokens hbase
  rw [endOf_append_singleton] at hbase
  obtain ⟨mark, t, rfl, -, hwritten⟩ := tokens_written htokens
  rw [show before ++ (init ++ [last]) ++ closers ++ opening :: inside ++ closing :: rest =
    (before ++ init) ++ last :: (closers ++ opening :: (inside ++ closing :: rest)) by simp] at hwritten
  -- First the last token of the value, then what closes its groupings, then the last token of the subscript.
  obtain ⟨front, word, t, rfl, -, hlast, hwritten⟩ := hwritten.find
  obtain ⟨gaps, t, rfl, hne, hgaps, hwritten⟩ := hwritten.closers hclosers hopening
  obtain ⟨within, word', after, rfl, hword', hclosed, -⟩ := hwritten.find
  have hclose : bracket? ']' = some (.closing .square) := rfl
  obtain rfl := (spells_iff_of_bracket? hclose).mp (hclosing ▸ hword')
  have hlength : (mark ++ front ++ word).length = base := by
    rw [← hbase, hlast]
    simp
  refine ⟨mark ++ front ++ word, gaps, within, after, by simp, hlength, ?_, hne, hgaps, c, ?_, hblank⟩
  · rw [← hstop, hclosed, hbase, List.length_append, List.length_singleton]
    omega
  · rwa [← hlength, ← List.append_assoc mark, ← List.append_assoc mark, List.take_left] at hc

/-! ## Places -/

/-- The places stand in the text and in order, and in front of the first one something can be seen. -/
def Outline.fits (t : Text) : Outline → Bool
  | .operation left right =>
    left ≤ right && right ≤ t.length && (t.take left).any fun c => !Text.isBlank c
  | .subscript base stop =>
    base < stop && stop ≤ t.length && (t.take base).any fun c => !Text.isBlank c
  | .other => true

/-- A character that is no blank stands in the left operand, and all of the gap between the operands in the text. -/
theorem of_operation_fits {t : Text} {left right : Nat} (h : (Outline.operation left right).fits t = true) :
    left ≤ right ∧ right ≤ t.length ∧ ∃ c ∈ t.take left, Text.isBlank c = false := by
  simpa [Outline.fits, and_assoc] using h

theorem of_subscript_fits {t : Text} {base stop : Nat} (h : (Outline.subscript base stop).fits t = true) :
    base < stop ∧ stop ≤ t.length ∧ ∃ c ∈ t.take base, Text.isBlank c = false := by
  simpa [Outline.fits, and_assoc] using h

theorem SubscriptAt.fits {t value inside after : Text} {base stop : Nat} {gaps : List Text}
    (h : SubscriptAt t base stop value gaps inside after) : (Outline.subscript base stop).fits t = true := by
  obtain ⟨c, hc, hblank⟩ := h.visible
  have hlength := congrArg List.length h.text_eq
  have hstop := h.stop_eq
  have hvalue : t.take base = value := by
    rw [h.text_eq, ← h.base_eq]
    simp only [List.append_assoc, List.take_left]
  simp only [List.length_append, List.length_cons, h.base_eq] at hlength
  simpa [Outline.fits, and_assoc] using ⟨by omega, by omega, c, hvalue.symm ▸ hc, hblank⟩

/-- **The places that an outline tells stand in the text**, in order and behind something that can be seen. -/
theorem fits_of_outline? {t : Text} {o : Outline} (h : outline? t = some o) : o.fits t = true := by
  cases o with
  | operation left right =>
    obtain ⟨front, start, operand, rest, htokens, hbegins, rfl, token, htoken, rfl⟩ := tokens_of_operation h
    have hplace := place_of_tokens htokens (List.append_ne_nil_of_right_ne_nil _ hbegins.ne_nil) htoken
    have hvisible := exists_visible_of_begins htokens hbegins
    rw [endOf_append _ hbegins.ne_nil] at hplace hvisible
    simpa [Outline.fits, and_assoc] using ⟨hplace.1, hplace.2.1.trans hplace.2.2, hvisible⟩
  | subscript base stop =>
    obtain ⟨value, gaps, inside, after, hat⟩ := subscript_written h
    exact hat.fits
  | other => rfl

end Traceback.Code
