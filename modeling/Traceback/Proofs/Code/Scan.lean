import Traceback.Code.Scan
import Traceback.Proofs.Text.Pieces

/-! # Where tokens stand

The tokens of a text stand in it one after the other, with nothing between them but blanks, line ends and comments.

* `Gap`: texts without a token in them.
* `Lexeme.Spells`: what a token says of the text it was read from.
* `Written`: a text made of gaps and the texts of tokens in turn.
* `Scanner.TokenCase`, `Scanner.StepCase`: all that a step can do.
* `Scanner.step_takes`: one step takes a gap, or a gap and the text of one token.
* `tokens_written`: every text that has tokens is made of them.
-/

namespace Traceback.Code
set_option autoImplicit false

/-! ## Suffixes -/

section Literals

theorem digits_suffix (isDigit : Char → Bool) (t : Text) : (digits isDigit t).2 <:+ t := by
  fun_induction digits isDigit t with
  | case1 => exact List.suffix_refl _
  | case2 c rest hc more after heq ih =>
    rw [heq] at ih
    exact ih.trans (List.suffix_cons c rest)
  | case3 c rest hc hnext ih => exact ih.trans (List.suffix_cons c rest)
  | case4 c rest hc hnext => exact List.suffix_refl _

theorem fraction_suffix {t rest : Text} {pointed : Bool} (h : fraction t = some (pointed, rest)) : rest <:+ t := by
  unfold fraction at h
  split at h
  next => cases h
  next more _ =>
    cases h
    exact (digits_suffix _ _).trans (List.suffix_cons _ _)
  next =>
    cases h
    exact List.suffix_refl _

theorem exponent_suffix (t : Text) : (exponent t).2 <:+ t := by
  unfold exponent
  split
  next e s d rest =>
    split
    next =>
      split
      next => exact (digits_suffix _ _).trans (List.suffix_cons _ _)
      next =>
        split
        next => exact (digits_suffix _ _).trans ((List.suffix_cons _ _).trans (List.suffix_cons _ _))
        next => exact List.suffix_refl _
    next => exact List.suffix_refl _
  next =>
    split
    next => exact List.nil_suffix
    next => exact List.suffix_refl _
  next => exact List.suffix_refl _

/-- Behind the fraction of a decimal number come at most its exponent and the mark of an imaginary one. -/
theorem decimal_after_fraction {t rest : Text} (h : decimal t = some rest) :
    ∃ pointed after, fraction (digits isDecimal t).2 = some (pointed, after) ∧ rest <:+ after := by
  unfold decimal at h
  dsimp only at h
  split at h
  next => cases h
  next pointed after hfraction =>
    refine ⟨pointed, after, hfraction, ?_⟩
    split at h
    next heq =>
      cases h
      exact (List.suffix_cons _ _).trans (heq ▸ exponent_suffix after)
    next heq =>
      cases h
      exact (List.suffix_cons _ _).trans (heq ▸ exponent_suffix after)
    next =>
      split at h
      next => cases h
      next =>
        cases h
        exact exponent_suffix after

theorem decimal_suffix {t rest : Text} (h : decimal t = some rest) : rest <:+ t := by
  obtain ⟨pointed, after, hfraction, hrest⟩ := decimal_after_fraction h
  exact hrest.trans ((fraction_suffix hfraction).trans (digits_suffix isDecimal t))

theorem number_suffix {t rest : Text} (h : number t = some rest) : rest <:+ t := by
  unfold number at h
  split at h
  next letter more =>
    split at h
    next isDigit _ =>
      dsimp only at h
      split at h
      next => cases h
      next =>
        cases h
        exact (digits_suffix _ _).trans ((List.suffix_cons _ _).trans (List.suffix_cons _ _))
    next => exact decimal_suffix h
  next => exact decimal_suffix h

theorem stringHead?_suffix {t inner : Text} {head : StringHead} (h : stringHead? t = some (head, inner)) :
    inner <:+ t := by
  unfold stringHead? at h
  dsimp only at h
  split at h
  next q rest flavour raw hdrop _ =>
    have hrest : rest <:+ t := (List.suffix_cons q rest).trans (hdrop ▸ List.drop_suffix _ t)
    split at h
    next =>
      split at h
      next a b inner' =>
        split at h
        next =>
          cases h
          exact (List.suffix_cons _ _).trans ((List.suffix_cons _ _).trans hrest)
        next =>
          cases h
          exact hrest
      next =>
        cases h
        exact hrest
    next => cases h
  next => cases h

/-- What follows contents also follows them when they are longer in front. -/
theorem prepend_suffix {first t contents rest : Text} {found : Option (Text × Text)}
    (h : prepend first found = some (contents, rest)) (hfound : ∀ more, found = some (more, rest) → rest <:+ t) :
    rest <:+ first ++ t := by
  obtain ⟨⟨more, rest'⟩, heq, hpair⟩ := Option.map_eq_some_iff.mp h
  cases hpair
  exact (hfound more heq).trans (List.suffix_append first t)

theorem quotedLine_suffix {q : Char} {t contents rest : Text} (h : quotedLine q t = some (contents, rest)) :
    rest <:+ t := by
  fun_induction quotedLine q t generalizing contents with
  | case1 => cases h
  | case2 more ih => exact prepend_suffix h fun _ => ih
  | case3 c more _ ih => exact prepend_suffix h fun _ => ih
  | case4 c more =>
    cases h
    exact List.suffix_cons _ _
  | case5 => cases h
  | case6 c more _ _ _ _ ih => exact prepend_suffix h fun _ => ih

theorem quotedBlock_suffix {q : Char} {t contents rest : Text} (h : quotedBlock q t = some (contents, rest)) :
    rest <:+ t := by
  fun_induction quotedBlock q t generalizing contents with
  | case1 => cases h
  | case2 c more ih => exact prepend_suffix h fun _ => ih
  | case3 c more =>
    cases h
    exact (List.drop_suffix _ _).trans (List.suffix_cons _ _)
  | case4 c more _ _ ih => exact prepend_suffix h fun _ => ih

theorem quoted_suffix {head : StringHead} {t contents rest : Text} (h : quoted head t = some (contents, rest)) :
    rest <:+ t := by
  unfold quoted at h
  split at h
  next => exact quotedBlock_suffix h
  next => exact quotedLine_suffix h

theorem stringText_suffix {s : StringHead} {inFormat named : Bool} {t contents rest : Text}
    (h : stringText s inFormat named t = some (contents, rest)) : rest <:+ t := by
  fun_induction stringText s inFormat named t generalizing contents with
  | case1 | case2 | case16 => cases h
  | case9 | case11 | case13 | case15 | case17 =>
    cases h
    exact List.suffix_refl _
  | case3 _ _ ih | case4 _ _ ih | case5 _ _ _ ih | case6 _ _ _ ih | case7 _ _ ih | case8 _ _ _ _ _ _ _ ih
  | case12 _ ih | case18 _ _ _ _ _ _ _ _ ih => exact prepend_suffix h fun _ => ih
  | case10 _ _ _ ih | case14 _ _ _ _ ih =>
    -- Of a brace that is written twice one is in the contents.
    exact (prepend_suffix h fun _ => ih).trans (List.suffix_cons _ _)

end Literals

theorem sign?_eq_append {t rest : Text} {spelling : String} (h : sign? t = some (spelling, rest)) :
    t = spelling.toList ++ rest := by
  obtain ⟨s, -, hs⟩ := List.exists_of_findSome?_eq_some h
  obtain ⟨rest', hrest, heq⟩ := Option.map_eq_some_iff.mp hs
  cases heq
  exact Text.eq_append_of_dropPrefix? hrest

/-! ## Gaps and words -/

/-- A text that holds no token: blanks, line ends, continued lines and comments. -/
inductive Gap : Text → Prop where
  | nil : Gap []
  | blank {c : Char} {t : Text} (hc : c = ' ' ∨ c = '\t' ∨ c = '\x0c') (h : Gap t) : Gap (c :: t)
  | lineEnd {c : Char} {t : Text} (hc : isLineEnd c = true) (h : Gap t) : Gap (c :: t)
  | continued {c : Char} {t : Text} (hc : isLineEnd c = true) (h : Gap t) : Gap ('\\' :: c :: t)
  | comment {words t : Text} (hwords : ∀ c ∈ words, isLineEnd c = false) (h : Gap t) : Gap ('#' :: (words ++ t))

/-- What a token says of the text it was read from. -/
def Lexeme.Spells (word : Text) : Lexeme → Prop
  | .name spelling => word = spelling
  | .keyword spelling | .sign spelling => word = spelling.toList
  | .opening b => ∃ c, word = [c] ∧ bracket? c = some (.opening b)
  | .closing b => ∃ c, word = [c] ∧ bracket? c = some (.closing b)
  | .lineEnd => ∀ c ∈ word, isLineEnd c = true
  | .textEnd => word = []
  | .number | .string _ | .stringStart _ | .stringPart | .stringEnd => True

/-- `ts` stand in `t` one after the other, with gaps in front of them and behind; `t` begins at `position`. -/
inductive Written : Nat → Text → List Token → Prop where
  | nil {position : Nat} {gap : Text} (hgap : Gap gap) : Written position gap []
  | cons {position : Nat} {gap word rest : Text} {l : Lexeme} {ts : List Token} (hgap : Gap gap) (hword : l.Spells word)
      (h : Written (position + gap.length + word.length) rest ts) :
      Written position (gap ++ word ++ rest)
        (⟨l, position + gap.length, position + gap.length + word.length⟩ :: ts)

theorem Gap.append {a b : Text} (ha : Gap a) (hb : Gap b) : Gap (a ++ b) := by
  induction ha with
  | nil => exact hb
  | blank hc _ ih => exact .blank hc ih
  | lineEnd hc _ ih => exact .lineEnd hc ih
  | continued hc _ ih => exact .continued hc ih
  | comment hwords _ ih =>
    rw [List.cons_append, List.append_assoc]
    exact .comment hwords ih

theorem Gap.of_lineEnds {t : Text} (h : ∀ c ∈ t, isLineEnd c = true) : Gap t := by
  induction t with
  | nil => exact .nil
  | cons c t ih =>
    obtain ⟨hc, ht⟩ := List.forall_mem_cons.mp h
    exact .lineEnd hc (ih ht)

/-- A gap in front of the first token is part of the gap that is there. -/
theorem Written.after_gap {position : Nat} {gap rest : Text} {ts : List Token} (hgap : Gap gap)
    (h : Written (position + gap.length) rest ts) : Written position (gap ++ rest) ts := by
  cases h with
  | nil hrest => exact .nil (hgap.append hrest)
  | cons hgap' hword h =>
    rw [Nat.add_assoc position, ← List.length_append] at h ⊢
    rw [← List.append_assoc, ← List.append_assoc]
    exact .cons (hgap.append hgap') hword h

section Written
variable {position : Nat} {t : Text} {token : Token} {ts ts' : List Token}

theorem Written.uncons (h : Written position t (token :: ts)) : ∃ gap word rest, t = gap ++ word ++ rest ∧ Gap gap ∧
    token.lexeme.Spells word ∧ token.stop = position + (gap ++ word).length ∧ Written token.stop rest ts := by
  cases h with
  | @cons _ gap word rest _ _ hgap hword h =>
    exact ⟨gap, word, rest, rfl, hgap, hword, by rw [List.length_append, Nat.add_assoc], h⟩

/-- Where one of the tokens stands, and what stands in front of it. -/
theorem Written.find (h : Written position t (ts ++ token :: ts')) : ∃ front word rest, t = front ++ word ++ rest ∧
    token.lexeme.Spells word ∧ token.stop = position + (front ++ word).length ∧ Written token.stop rest ts' := by
  induction ts generalizing position t with
  | nil =>
    obtain ⟨gap, word, rest, rfl, -, hword, hstop, hrest⟩ := h.uncons
    exact ⟨gap, word, rest, rfl, hword, hstop, hrest⟩
  | cons first ts ih =>
    obtain ⟨gap, word, rest, rfl, -, -, hfirst, hrest⟩ := h.uncons
    obtain ⟨front, word', rest, rfl, hword, hstop, hrest⟩ := ih hrest
    refine ⟨gap ++ word ++ front, word', rest, by simp only [List.append_assoc], hword, ?_, hrest⟩
    rw [hstop, hfirst, Nat.add_assoc, ← List.length_append, ← List.append_assoc]

end Written

theorem spells_wordLexeme (spelling : Text) : (wordLexeme spelling).Spells spelling := by
  unfold wordLexeme
  split
  next word hfind =>
    have hword := List.find?_some hfind
    exact (of_decide_eq_true hword).symm
  next => rfl

theorem bracket?_inj {c d : Char} {l : Lexeme} (hc : bracket? c = some l) (hd : bracket? d = some l) : c = d := by
  unfold bracket? at hc hd
  split at hc <;> cases hc <;> split at hd <;> cases hd <;> rfl

theorem spells_iff_of_bracket? {c : Char} {l : Lexeme} {word : Text} (h : bracket? c = some l) :
    l.Spells word ↔ word = [c] := by
  have hl : (∃ b, l = .opening b) ∨ ∃ b, l = .closing b := by
    unfold bracket? at h
    split at h <;> cases h <;> simp
  obtain ⟨b, rfl⟩ | ⟨b, rfl⟩ := hl
  all_goals
    constructor
    · rintro ⟨d, rfl, hd⟩
      rw [bracket?_inj hd h]
    · rintro rfl
      exact ⟨c, rfl, h⟩

/-! ## In front of a token -/

/-- `t` is `rest` behind a gap. -/
def Skips (t rest : Text) : Prop := ∃ gap, t = gap ++ rest ∧ Gap gap

namespace Skips
variable {c : Char} {t rest : Text}

theorem refl (t : Text) : Skips t t := ⟨[], rfl, .nil⟩

theorem suffix (h : Skips t rest) : rest <:+ t := by
  obtain ⟨gap, hgap, -⟩ := h
  exact ⟨gap, hgap.symm⟩

theorem blank (h : Skips t rest) (hc : c = ' ' ∨ c = '\t' ∨ c = '\x0c') : Skips (c :: t) rest := by
  obtain ⟨gap, rfl, hgap⟩ := h
  exact ⟨c :: gap, rfl, .blank hc hgap⟩

theorem lineEnd (h : Skips t rest) (hc : isLineEnd c = true) : Skips (c :: t) rest := by
  obtain ⟨gap, rfl, hgap⟩ := h
  exact ⟨c :: gap, rfl, .lineEnd hc hgap⟩

theorem continued (h : Skips t rest) (hc : isLineEnd c = true) : Skips ('\\' :: c :: t) rest := by
  obtain ⟨gap, rfl, hgap⟩ := h
  exact ⟨'\\' :: c :: gap, rfl, .continued hc hgap⟩

end Skips

theorem skips_skipBlanks {t rest : Text} (h : skipBlanks t = some rest) : Skips t rest := by
  fun_induction skipBlanks t with
  | case1 _ ih | case2 _ ih | case3 _ ih => exact (ih h).blank (by simp)
  | case4 | case6 | case8 | case10 => cases h
  | case5 _ _ ih => exact ((ih h).lineEnd rfl).continued rfl
  | case7 _ _ _ ih | case9 _ _ ih => exact (ih h).continued rfl
  | case11 =>
    cases h
    exact Skips.refl _

theorem skips_indentation {continued indented found : Bool} {t rest : Text}
    (h : indentation continued indented t = some (found, rest)) : Skips t rest := by
  fun_induction indentation continued indented t with
  | case1 _ _ _ ih | case2 _ _ _ ih | case3 _ _ _ ih => exact (ih h).blank (by simp)
  | case4 | case6 | case8 | case10 => cases h
  | case5 _ _ _ _ ih => exact ((ih h).lineEnd rfl).continued rfl
  | case7 _ _ _ _ _ ih | case9 _ _ _ _ ih => exact (ih h).continued rfl
  | case11 =>
    cases h
    exact Skips.refl _

theorem skips_beforeToken {fresh : Bool} {t rest : Text} (h : beforeToken fresh t = some rest) : Skips t rest := by
  unfold beforeToken at h
  split at h
  next =>
    split at h
    next => cases h
    next heq =>
      split at h
      next => cases h
      next =>
        cases h
        exact skips_indentation heq
  next => exact skips_skipBlanks h

theorem skips_comment (t : Text) : Skips ('#' :: t) (t.dropWhile fun d => !isLineEnd d) := by
  refine ⟨'#' :: (t.takeWhile (fun d => !isLineEnd d) ++ []), ?_, .comment (fun d hd => ?_) .nil⟩
  · rw [List.append_nil, List.cons_append, List.takeWhile_append_dropWhile]
  · simpa using List.all_eq_true.mp List.all_takeWhile d hd

/-! ## Steps -/

namespace Scanner

/-- From `position`, where `t` begins, a step takes a gap or a token behind one and stands at `next` then. -/
inductive Takes (position : Nat) (t : Text) : List Token → Scanner → Prop where
  | gap {next : Scanner} {gap : Text} (hgap : Gap gap) (hrest : t = gap ++ next.rest)
      (hposition : next.position = position + gap.length) : Takes position t [] next
  | token {next : Scanner} {gap word : Text} {l : Lexeme} (hgap : Gap gap) (hword : l.Spells word)
      (hrest : t = gap ++ word ++ next.rest) (hposition : next.position = position + gap.length + word.length) :
      Takes position t [⟨l, position + gap.length, next.position⟩] next

theorem Takes.suffix {position : Nat} {t : Text} {found : List Token} {next : Scanner} (h : Takes position t found next) :
    next.rest <:+ t := by
  cases h with
  | gap _ hrest _ => exact ⟨_, hrest.symm⟩
  | token _ _ hrest _ => exact ⟨_, hrest.symm⟩

theorem moveTo_position {s : Scanner} {word rest : Text} (h : s.rest = word ++ rest) :
    (s.moveTo rest).position = s.position + word.length := by
  show s.position + (s.rest.length - rest.length) = _
  rw [h, List.length_append, Nat.add_sub_cancel]

theorem Takes.after_gap {s next : Scanner} {gap rest : Text} {found : List Token} (hgap : Gap gap)
    (hrest : s.rest = gap ++ rest) (h : Takes (s.moveTo rest).position rest found next) :
    Takes s.position s.rest found next := by
  rw [moveTo_position hrest] at h
  cases h with
  | gap hgap' hrest' hposition =>
    exact .gap (hgap.append hgap') (by rw [hrest, hrest', List.append_assoc])
      (by rw [hposition, List.length_append, Nat.add_assoc])
  | token hgap' hword hrest' hposition =>
    rw [Nat.add_assoc s.position, ← List.length_append] at hposition ⊢
    exact .token (hgap.append hgap') hword (by rw [hrest, hrest']; simp only [List.append_assoc]) hposition

theorem takes_moveTo {s : Scanner} {rest : Text} (h : Skips s.rest rest) :
    Takes s.position s.rest [] (s.moveTo rest) := by
  obtain ⟨gap, hrest, hgap⟩ := h
  exact .gap hgap hrest (moveTo_position hrest)

/-- A token is read from what stands in front of the rest. -/
theorem takes_take {s next : Scanner} {l : Lexeme} {rest : Text} {found : List Token} (word : Text)
    (h : s.take l rest = some (found, next)) (hrest : s.rest = word ++ rest) (hword : l.Spells word) :
    Takes s.position s.rest found next := by
  cases h
  exact .token .nil hword hrest (moveTo_position hrest)

theorem takes_takeLineEnd {s next : Scanner} {rest : Text} {found : List Token} (word : Text)
    (h : s.takeLineEnd rest = some (found, next)) (hrest : s.rest = word ++ rest)
    (hword : ∀ c ∈ word, isLineEnd c = true) : Takes s.position s.rest found next := by
  unfold takeLineEnd at h
  split at h
  next =>
    cases h
    exact @Takes.token _ _ { s.moveTo rest with fresh := true } [] word .lineEnd .nil hword hrest
      (moveTo_position hrest)
  next =>
    cases h
    exact .gap (Gap.of_lineEnds hword) hrest (moveTo_position hrest)

theorem takes_takeString {s next : Scanner} {head : StringHead} {inner : Text} {found : List Token}
    (h : s.takeString head inner = some (found, next)) (hinner : inner <:+ s.rest) :
    Takes s.position s.rest found next := by
  obtain ⟨word, hword⟩ := hinner
  unfold takeString at h
  split at h
  next => exact (takes_take word h hword.symm trivial :)
  next =>
    split at h
    next => cases h
    next contents rest hquoted =>
      split at h
      next =>
        obtain ⟨more, hmore⟩ := quoted_suffix hquoted
        refine takes_take (word ++ more) h ?_ trivial
        rw [← hword, ← hmore, List.append_assoc]
      next => cases h

theorem takes_takeBracket {s next : Scanner} {c : Char} {l : Lexeme} {rest : Text} {found : List Token}
    (h : s.takeBracket l rest = some (found, next)) (hl : bracket? c = some l) (hrest : s.rest = c :: rest) :
    Takes s.position s.rest found next := by
  unfold takeBracket at h
  split at h
  next => exact (takes_take [c] h hrest ((spells_iff_of_bracket? hl).mpr rfl) :)
  next =>
    split at h
    next => cases h
    next => exact (takes_take [c] h hrest ((spells_iff_of_bracket? hl).mpr rfl) :)
  next => exact (takes_take [c] h hrest ((spells_iff_of_bracket? hl).mpr rfl) :)

theorem takes_takeSign {s next : Scanner} {found : List Token} (h : s.takeSign = some (found, next)) :
    Takes s.position s.rest found next := by
  unfold takeSign at h
  split at h
  next after hrest =>
    split at h
    next => exact (takes_take [':'] h hrest rfl :)
    next =>
      split at h
      next => exact takes_take [':', '='] h hrest rfl
      next => exact (takes_take [':'] h hrest rfl :)
  next =>
    split at h
    next hsign => exact takes_take _ h (sign?_eq_append hsign) rfl
    next => cases h

/-- How what begins with the character `c` is taken. -/
inductive TokenCase (s : Scanner) (c : Char) (after : Text) (o : List Token × Scanner) : Prop where
  | lineEnd (hc : isLineEnd c = true) (h : s.takeLineEnd after = some o)
  | lineEnds {rest : Text} (hc : c = '\r') (hafter : after = '\n' :: rest) (h : s.takeLineEnd rest = some o)
  | comment (hc : c = '#') (ho : o = ([], s.moveTo (after.dropWhile fun d => !isLineEnd d)))
  | string {head : StringHead} {inner : Text} (hhead : stringHead? s.rest = some (head, inner))
      (h : s.takeString head inner = some o)
  | word (hc : isWordStart c = true)
      (h : s.take (wordLexeme (s.rest.takeWhile isWordPart)) (s.rest.dropWhile isWordPart) = some o)
  | number {rest : Text} (hstart : startsNumber s.rest = true) (hnumber : number s.rest = some rest)
      (h : s.take .number rest = some o)
  | bracket {l : Lexeme} (hl : bracket? c = some l) (h : s.takeBracket l after = some o)
  | sign (h : s.takeSign = some o)

theorem takeToken_cases {s : Scanner} {c : Char} {after : Text} {o : List Token × Scanner}
    (h : s.takeToken c after = some o) : TokenCase s c after o := by
  unfold takeToken at h
  split at h
  next hc =>
    split at h
    next rest => exact .lineEnds rfl rfl h
    next => exact .lineEnd hc h
  next =>
    split at h
    next hc => exact .comment hc (Option.some.inj h).symm
    next =>
      split at h
      next hhead => exact .string hhead h
      next =>
        split at h
        next hc => exact .word hc h
        next =>
          split at h
          next hstart =>
            obtain ⟨rest, hnumber, htake⟩ := Option.bind_eq_some_iff.mp h
            exact .number hstart hnumber htake
          next =>
            split at h
            next hl => exact .bracket hl h
            next => exact .sign h

/-- What a step does: it comes to the end of the text or to a token, or goes on in a string. -/
inductive StepCase (s : Scanner) (o : List Token × Scanner) : Prop where
  | blank (hbefore : beforeToken s.fresh s.rest = some []) (ho : o = ([], s.moveTo []))
  | token {c : Char} {after : Text} (hbefore : beforeToken s.fresh s.rest = some (c :: after))
      (h : (s.moveTo (c :: after)).takeToken c after = some o)
  | stringEnd {innermost : OpenString} {outer : List OpenString} {rest : Text} (hstrings : s.strings = innermost :: outer)
      (hquotes : closingQuotes? innermost.head s.rest = some rest)
      (h : { s with strings := outer }.take .stringEnd rest = some o)
  | stringPart {innermost : OpenString} {contents rest : Text} (hne : contents ≠ [])
      (htext : stringText innermost.head (innermost.inFormat s.depth) false s.rest = some (contents, rest))
      (h : s.take .stringPart rest = some o)

theorem stepCode_cases {s : Scanner} {o : List Token × Scanner} (h : s.stepCode = some o) : StepCase s o := by
  unfold stepCode at h
  split at h
  next => cases h
  next rest hbefore =>
    split at h
    next => exact .blank hbefore (Option.some.inj h).symm
    next => exact .token hbefore h

theorem step_cases {s : Scanner} {o : List Token × Scanner} (h : s.step = some o) : StepCase s o := by
  unfold step at h
  split at h
  next => exact stepCode_cases h
  next innermost outer hstrings =>
    split at h
    next => exact stepCode_cases h
    next =>
      split at h
      next rest hquotes => exact .stringEnd hstrings hquotes h
      next =>
        split at h
        next => cases h
        next => exact stepCode_cases h
        next contents rest hne htext =>
          split at h
          next => exact .stringPart hne htext h
          next => cases h

theorem takes_takeToken {s next : Scanner} {c : Char} {after : Text} {found : List Token}
    (hrest : s.rest = c :: after) (h : s.takeToken c after = some (found, next)) : Takes s.position s.rest found next := by
  cases takeToken_cases h with
  | lineEnd hc h => exact takes_takeLineEnd [c] h hrest (by simpa using hc)
  | lineEnds hc hafter h =>
    rw [hc, hafter] at hrest
    exact takes_takeLineEnd ['\r', '\n'] h hrest (List.all_eq_true.mp rfl)
  | comment hc ho =>
    cases ho
    exact takes_moveTo (hrest ▸ hc ▸ skips_comment after)
  | string hhead h => exact takes_takeString h (stringHead?_suffix hhead)
  | word _ h => exact takes_take _ h List.takeWhile_append_dropWhile.symm (spells_wordLexeme _)
  | number _ hnumber h =>
    obtain ⟨word, hword⟩ := number_suffix hnumber
    exact takes_take word h hword.symm trivial
  | bracket hl h => exact takes_takeBracket h hl hrest
  | sign h => exact takes_takeSign h

/-- **One step takes one token, or none.** -/
theorem step_takes {s next : Scanner} {found : List Token} (h : s.step = some (found, next)) :
    Takes s.position s.rest found next := by
  cases step_cases h with
  | blank hbefore ho =>
    cases ho
    exact takes_moveTo (skips_beforeToken hbefore)
  | token hbefore h =>
    obtain ⟨gap, hrest, hgap⟩ := skips_beforeToken hbefore
    exact (takes_takeToken rfl h).after_gap hgap hrest
  | stringEnd _ hquotes h => exact (takes_take _ h (Text.eq_append_of_dropPrefix? hquotes) trivial :)
  | stringPart _ htext h =>
    obtain ⟨word, hword⟩ := stringText_suffix htext
    exact takes_take word h hword.symm trivial

theorem Takes.written {position : Nat} {t : Text} {found ts : List Token} {next : Scanner}
    (h : Takes position t found next) (hts : Written next.position next.rest ts) :
    Written position t (found ++ ts) := by
  cases h with
  | gap hgap hrest hposition =>
    rw [hposition] at hts
    rw [hrest]
    exact hts.after_gap hgap
  | token hgap hword hrest hposition =>
    rw [hposition] at hts ⊢
    rw [hrest]
    exact .cons hgap hword hts

/-- The tokens at the end of a text are read from no part of it. -/
theorem finish_written {s : Scanner} {ts : List Token} (hrest : s.rest = []) (h : s.finish = some ts) :
    Written s.position s.rest ts := by
  have hstop : Written s.position [] [⟨.textEnd, s.position, s.position⟩] :=
    .cons .nil (show Lexeme.Spells [] .textEnd from rfl) (.nil .nil)
  have hlineEnd : Written s.position [] [⟨.lineEnd, s.position, s.position⟩, ⟨.textEnd, s.position, s.position⟩] :=
    .cons .nil (show Lexeme.Spells [] .lineEnd from fun _ h => absurd h List.not_mem_nil) hstop
  unfold finish at h
  split at h
  next =>
    cases h
    rw [hrest]
    split
    next => exact hstop
    next => exact hlineEnd
  next => cases h

theorem run_written {fuel : Nat} {s : Scanner} {ts : List Token} (h : s.run fuel = some ts) :
    Written s.position s.rest ts := by
  induction fuel generalizing s ts with
  | zero => cases h
  | succ fuel ih =>
    rw [run] at h
    split at h
    next hempty => exact finish_written (List.isEmpty_iff.mp hempty) h
    next =>
      split at h
      next => cases h
      next found next hstep =>
        obtain ⟨more, hmore, rfl⟩ := Option.map_eq_some_iff.mp h
        exact (step_takes hstep).written (ih hmore)

end Scanner

/-- **A text is made of its tokens**, with gaps between them; a mark of the byte order may stand in front. -/
theorem tokens_written {t : Text} {ts : List Token} (h : tokens t = some ts) :
    ∃ mark rest, t = mark ++ rest ∧ (mark = [] ∨ mark = ['\uFEFF']) ∧ Written mark.length rest ts := by
  unfold tokens at h
  split at h
  next rest => exact ⟨['\uFEFF'], rest, rfl, .inr rfl, Scanner.run_written h⟩
  next => exact ⟨[], t, rfl, .inl rfl, Scanner.run_written h⟩

end Traceback.Code
