import Traceback.Proofs.Code.Narrowing
import Traceback.Proofs.Code.Progress
import Traceback.Proofs.Code.Spacing

/-! # Indented `raise` statements

* `Scanner.Follows`: that the scanner of a text and the one of a narrowed text are at the same point.
* `Scanner.step_follows`, `Scanner.run_follows`: steps keep them so, and the tokens are the same up to their places.
* `raises_narrowed`: a `raise` statement is one with narrower margins.
* `raises_indented_iff`: indented as a whole it is one only when its first line holds no code.
-/

namespace Traceback.Code
set_option autoImplicit false

open Text (Narrowed isMarginChar)

/-! ## Runs -/

namespace Scanner

section Quoted
variable {s next : Scanner} {rest : Text} {l : Lexeme} {found : List Token}

theorem quoted_of_take (hs : s.Quoted) (h : s.take l rest = some (found, next)) : next.Quoted := by
  cases h
  exact hs

theorem quoted_mapInnermost (change : OpenString → OpenString) (hchange : ∀ o, (change o).head = o.head)
    {strings : List OpenString} (hs : ∀ o ∈ strings, isQuote o.head.quote = true) :
    ∀ o ∈ mapInnermost change strings, isQuote o.head.quote = true := by
  cases strings with
  | nil => exact hs
  | cons o outer =>
    obtain ⟨hhead, houter⟩ := List.forall_mem_cons.mp hs
    exact List.forall_mem_cons.mpr ⟨(hchange o).symm ▸ hhead, houter⟩

theorem head_endFormat (depth : Nat) (o : OpenString) : (o.endFormat depth).head = o.head := by
  unfold OpenString.endFormat
  split <;> rfl

theorem quoted_of_takeLineEnd (hs : s.Quoted) (h : s.takeLineEnd rest = some (found, next)) : next.Quoted := by
  unfold takeLineEnd at h
  split at h <;> cases h
  next => exact hs
  next => exact quoted_mapInnermost _ (head_endFormat _) hs

theorem quoted_of_takeString {head : StringHead} (hs : s.Quoted) (hquote : isQuote head.quote = true)
    (h : s.takeString head rest = some (found, next)) : next.Quoted := by
  unfold takeString at h
  split at h
  next =>
    refine quoted_of_take ?_ h
    exact List.forall_mem_cons.mpr ⟨hquote, hs⟩
  next =>
    split at h
    next => cases h
    next =>
      split at h
      next => exact quoted_of_take hs h
      next => cases h

theorem quoted_of_takeBracket (hs : s.Quoted) (h : s.takeBracket l rest = some (found, next)) : next.Quoted := by
  unfold takeBracket at h
  split at h
  next => exact quoted_of_take (s := { s with depth := s.depth + 1 }) hs h
  next =>
    split at h
    next => cases h
    next =>
      refine quoted_of_take ?_ h
      exact quoted_mapInnermost _ (head_endFormat _) hs
  next => exact quoted_of_take (s := { s with depth := s.depth - 1 }) hs h

theorem quoted_of_takeSign (hs : s.Quoted) (h : s.takeSign = some (found, next)) : next.Quoted := by
  unfold takeSign at h
  split at h
  next =>
    split at h
    next =>
      refine quoted_of_take ?_ h
      exact quoted_mapInnermost (fun o => { o with formats := o.formats + 1 }) (fun _ => rfl) hs
    next => split at h <;> exact quoted_of_take hs h
  next =>
    split at h
    next => exact quoted_of_take hs h
    next => cases h

theorem quoted_of_takeToken {c : Char} {after : Text} (hs : s.Quoted) (h : s.takeToken c after = some (found, next)) :
    next.Quoted := by
  cases takeToken_cases h with
  | lineEnd _ h | lineEnds _ _ h => exact quoted_of_takeLineEnd hs h
  | comment _ ho =>
    cases ho
    exact hs
  | string hhead h => exact quoted_of_takeString hs (isQuote_of_stringHead? hhead).1 h
  | word _ h | number _ _ h => exact quoted_of_take hs h
  | bracket _ h => exact quoted_of_takeBracket hs h
  | sign h => exact quoted_of_takeSign hs h

theorem quoted_of_step (hs : s.Quoted) (h : s.step = some (found, next)) : next.Quoted := by
  cases step_cases h with
  | blank _ ho =>
    cases ho
    exact hs
  | @token c after _ h => exact quoted_of_takeToken (s := s.moveTo (c :: after)) hs h
  | stringEnd hstrings _ h =>
    refine quoted_of_take ?_ h
    exact fun o ho => hs o (hstrings ▸ List.mem_cons_of_mem _ ho)
  | stringPart _ _ h => exact quoted_of_take hs h

end Quoted

/-- Where `u` begins at `p`, the scanner would be at the same point as `s`. What begins there touches the token up to
`last'` if here it touches the one up to `last`. -/
structure Follows (last last' : Nat) (s : Scanner) (u : Text) (p : Nat) : Prop where
  narrowed : ∃ atStart, Narrowed atStart s.rest u ∧ (atStart = true → s.InCode)
  ended : Ended s.rest
  quoted : s.Quoted
  last_le : last ≤ s.position
  touches : s.position = last → p = last'

section Runs
variable {last last' p fuel : Nat} {s : Scanner} {u : Text} {ts : List Token}

theorem finish_follows (htouches : s.position = last → p = last') (h : s.finish = some ts) :
    ∃ ts', (s.moved u p).finish = some ts' ∧ Respaced last last' ts ts' := by
  unfold finish at h ⊢
  split at h
  next hclosed =>
    have hclosed' : (s.moved u p).depth = 0 ∧ (s.moved u p).strings.isEmpty = true := hclosed
    cases h
    rw [if_pos hclosed', show (s.moved u p).fresh = s.fresh from rfl]
    refine ⟨_, rfl, ?_⟩
    have hstop : Respaced s.position p [⟨.textEnd, s.position, s.position⟩] [⟨.textEnd, p, p⟩] :=
      .cons rfl (fun _ => rfl) .nil
    split
    next => exact .cons rfl htouches .nil
    next => exact .cons rfl htouches hstop
  next => cases h

/-- A step keeps the scanners at the same point; what they find differs in nothing but places. -/
theorem step_follows {found : List Token} {next : Scanner} (h : Follows last last' s u p)
    (hstep : s.step = some (found, next)) : ∃ found' u' p' stop stop', (s.moved u p).step = some (found', next.moved u' p') ∧
      Follows stop stop' next u' p' ∧
      ∀ more more', Respaced stop stop' more more' → Respaced last last' (found ++ more) (found' ++ more') := by
  obtain ⟨⟨atStart, hnarrowed, hcode⟩, hended, hquoted, hlast, htouches⟩ := h
  obtain ⟨o, hstep', hmirrors⟩ := step_mirrored (p := p) hquoted hended hcode hnarrowed found next hstep
  have hended' := hended.of_suffix (step_takes hstep).suffix
  have hquoted' := quoted_of_step hquoted hstep
  cases hmirrors with
  | @gap atStart rest position hrest hcode hle hstays =>
    have htouches' : next.position = last → position = last' := by
      intro heq
      rw [hstays (by omega), htouches (by omega)]
    exact ⟨[], rest, position, last, last', hstep',
      ⟨⟨atStart, hrest, hcode⟩, hended', hquoted', hlast.trans hle, htouches'⟩, fun _ _ h => h⟩
  | @token atStart rest position start start' l hrest hcode hle hstop hstart =>
    have htouches' : start = last → start' = last' := by
      intro heq
      rw [hstart (by omega), htouches (by omega)]
    exact ⟨[⟨l, start', position⟩], rest, position, next.position, position, hstep',
      ⟨⟨atStart, hrest, hcode⟩, hended', hquoted', Nat.le_refl _, fun _ => rfl⟩, fun _ _ h => .cons rfl htouches' h⟩

/-- **The tokens of a text are those of the text with narrower margins**, up to where they stand. -/
theorem run_follows (h : Follows last last' s u p) (hrun : s.run fuel = some ts) :
    ∃ ts', (s.moved u p).run fuel = some ts' ∧ Respaced last last' ts ts' := by
  induction fuel generalizing last last' s u p ts with
  | zero => cases hrun
  | succ fuel ih =>
    obtain ⟨_, hnarrowed, -⟩ := h.narrowed
    rw [run, h.ended.isEmpty_eq hnarrowed] at hrun
    rw [run, show (s.moved u p).rest = u from rfl]
    split at hrun
    next hempty =>
      rw [if_pos hempty]
      exact finish_follows h.touches hrun
    next hempty =>
      rw [if_neg hempty]
      split at hrun
      next => cases hrun
      next found next hstep =>
        obtain ⟨more, hmore, rfl⟩ := Option.map_eq_some_iff.mp hrun
        obtain ⟨found', u', p', stop, stop', hstep', hfollows, hjoined⟩ := step_follows h hstep
        obtain ⟨more', hmore', hrespaced⟩ := ih hfollows hmore
        rw [hstep']
        dsimp only
        rw [hmore']
        exact ⟨found' ++ more', rfl, hjoined more more' hrespaced⟩

/-- The scanner where a text, or a line between tokens, begins. -/
def fromStart (t : Text) (position : Nat) : Scanner := ⟨t, position, true, 0, []⟩

theorem follows_fromStart {atStart : Bool} {t : Text} {position : Nat} (hn : Narrowed atStart t u) (ht : Ended t)
    (hlast : last ≤ position) (htouches : position = last → p = last') :
    Follows last last' (fromStart t position) u p :=
  ⟨⟨atStart, hn, fun _ _ ho => absurd ho (by simp [fromStart])⟩, ht, fun _ ho => absurd ho List.not_mem_nil, hlast, htouches⟩

end Runs
end Scanner

/-! ## Texts -/

section Texts
variable {t u : Text} {ts : List Token}

/-- The tokens of a text, when it begins with no mark of the byte order. -/
theorem tokens_eq_run (h : t.head? ≠ some '\uFEFF') : tokens t = (Scanner.fromStart t 0).run (t.length + 1) := by
  unfold tokens
  split
  next => exact absurd rfl h
  next => rfl

/-- Tokens of a text are those of the text with narrower margins. -/
theorem tokens_narrowed (hend : Ended t) (h : Narrowed false t u) (ht : tokens t = some ts) :
    ∃ ts', tokens u = some ts' ∧ Respaced 0 0 ts ts' := by
  by_cases hmark : t.head? = some '\uFEFF'
  · obtain ⟨t, rfl⟩ := List.head?_eq_some_iff.mp hmark
    obtain ⟨u, rfl, hrest⟩ := h.cons_left
    have hfollows : Scanner.Follows 0 0 (Scanner.fromStart t 1) u 1 :=
      Scanner.follows_fromStart hrest (hend.of_suffix (List.suffix_cons _ _)) (Nat.zero_le _) fun h => by cases h
    obtain ⟨ts', hrun, hrespaced⟩ := Scanner.run_follows hfollows (show (Scanner.fromStart t 1).run _ = some ts from ht)
    have hfuel : u.length < ('\uFEFF' :: u).length + 1 := Nat.lt_succ_of_lt (Nat.lt_succ_self _)
    exact ⟨ts', Scanner.run_eq_of_length (s := Scanner.fromStart u 1) hrun hfuel, hrespaced⟩
  · rw [tokens_eq_run hmark] at ht
    rw [tokens_eq_run (h.head?_eq ▸ hmark)]
    have hfollows : Scanner.Follows 0 0 (Scanner.fromStart t 0) u 0 :=
      Scanner.follows_fromStart h hend (Nat.zero_le _) fun _ => rfl
    obtain ⟨ts', hrun, hrespaced⟩ := Scanner.run_follows hfollows ht
    exact ⟨ts', Scanner.run_eq_of_length (s := Scanner.fromStart u 0) hrun (Nat.lt_succ_self _), hrespaced⟩

theorem raises_eq_true_iff : raises t = true ↔
    ∃ ts, tokens t = some ts ∧ ((raiseOnly (fuelFor ts)).run ⟨ts, 0⟩).isSome = true := by
  unfold raises
  cases tokens t with
  | none => simp
  | some ts => simp

/-- Tokens of a `raise` statement elsewhere are those of one. -/
theorem raises_of_respaced {ts' : List Token} (h : Respaced 0 0 ts ts') (hts : tokens t = some ts) (hu : tokens u = some ts')
    (ht : raises t = true) : raises u = true := by
  obtain ⟨ts, hts', hraise⟩ := raises_eq_true_iff.mp ht
  cases hts.symm.trans hts'
  refine raises_eq_true_iff.mpr ⟨ts', hu, ?_⟩
  obtain ⟨⟨a, c⟩, hrun⟩ := Option.isSome_iff_exists.mp hraise
  obtain ⟨a', c', hrun', -⟩ := (raiseOnly_respects (fuelFor ts)).run ⟨ts, 0⟩ ⟨ts', 0⟩ h a c hrun
  rw [show fuelFor ts' = fuelFor ts by rw [fuelFor, fuelFor, h.length_eq], hrun']
  rfl

/-- **A `raise` statement is one with narrower margins.** -/
theorem raises_narrowed (hend : Ended t) (h : Narrowed false t u) (ht : raises t = true) : raises u = true := by
  obtain ⟨ts, hts, -⟩ := raises_eq_true_iff.mp ht
  obtain ⟨ts', hts', hrespaced⟩ := tokens_narrowed hend h hts
  exact raises_of_respaced hrespaced hts hts' ht

end Texts

/-! ## Indentation -/

section Indentation
variable {t u rest residue : Text} {p : Nat}

/-- Whether the line with which a text begins, together with those that it is continued by, holds code. -/
def opensWithCode (t : Text) : Bool := (skipBlanks t).any fun rest => !holdsNoCode rest

theorem indentation_margin (continued : Bool) {indented : Bool} (hresidue : ∀ c ∈ residue, isMarginChar c = true)
    (hindented : indented = true ∨ residue ≠ []) :
    indentation continued indented (residue ++ t) = indentation continued true t := by
  induction residue generalizing indented with
  | nil =>
    rw [hindented.resolve_right fun h => h rfl]
    rfl
  | cons c residue ih =>
    obtain ⟨hc, hresidue⟩ := List.forall_mem_cons.mp hresidue
    rw [isMarginChar, Bool.or_eq_true, beq_iff_eq, beq_iff_eq] at hc
    rw [← ih hresidue (.inl rfl)]
    rcases hc with rfl | rfl <;> rw [List.cons_append, indentation]

theorem found_of_continued {continued indented found : Bool} (hcontinued : continued = true)
    (h : indentation continued indented t = some (found, rest)) : found = true := by
  fun_induction indentation continued indented t with
  | case1 _ _ _ ih | case2 _ _ _ ih | case3 _ _ _ ih => exact ih hcontinued h
  | case4 | case6 | case8 | case10 => cases h
  | case5 _ _ _ _ ih | case7 _ _ _ _ _ ih | case9 _ _ _ _ ih => exact ih (by rw [hcontinued]; rfl) h
  | case11 =>
    cases h
    rw [hcontinued]
    rfl

/-- A line that is indented stays so when no white space follows: where it is continued, the indentation counts. -/
theorem indentation_of_head?_not_blank (h : ∀ c ∈ t.head?, isBlank c = false) :
    indentation false true t = indentation true true t := by
  rw [indentation.eq_def false true t, indentation.eq_def true true t]
  split <;> first | rfl | cases h _ rfl

theorem beforeToken_of_opensWithCode (hresidue : ∀ c ∈ residue, isMarginChar c = true) (hne : residue ≠ [])
    (hhead : ∀ c ∈ t.head?, isBlank c = false) (hcode : opensWithCode t = true) :
    beforeToken true (residue ++ t) = none := by
  obtain ⟨rest, hskip, hrest⟩ := (Option.any_eq_true _ _).mp hcode
  have hindentation : indentation false false (residue ++ t) = some (true, rest) := by
    rw [indentation_margin false hresidue (.inr hne), indentation_of_head?_not_blank hhead]
    rw [skipBlanks_eq true true] at hskip
    obtain ⟨⟨found, rest⟩, hfound, rfl⟩ := Option.map_eq_some_iff.mp hskip
    rw [hfound, found_of_continued rfl hfound]
  unfold beforeToken
  rw [if_pos rfl, hindentation]
  exact if_pos hrest

/-- White space in front of a line without code has no say. -/
theorem beforeToken_of_holdsNoCode (hresidue : ∀ c ∈ residue, isMarginChar c = true)
    (h : skipBlanks t = some rest) (hrest : holdsNoCode rest = true) : beforeToken true (residue ++ t) = some rest := by
  have hskip : skipBlanks (residue ++ t) = some rest := by
    by_cases hne : residue = []
    · rwa [hne]
    · rw [skipBlanks_eq false false, indentation_margin false hresidue (.inr hne), ← skipBlanks_eq false true, h]
  rw [skipBlanks_eq false false] at hskip
  obtain ⟨⟨found, rest⟩, hfound, rfl⟩ := Option.map_eq_some_iff.mp hskip
  unfold beforeToken
  rw [if_pos rfl, hfound]
  refine if_neg ?_
  rw [hrest, Bool.not_true, Bool.and_false]
  exact Bool.false_ne_true

theorem skipBlanks_of_beforeToken {fresh : Bool} (h : beforeToken fresh t = some rest) : skipBlanks t = some rest := by
  unfold beforeToken at h
  split at h
  next =>
    rw [skipBlanks_eq false false]
    cases hfound : indentation false false t with
    | none => simp [hfound] at h
    | some found =>
      simp only [hfound, Option.ite_none_left_eq_some, Option.some.injEq] at h
      exact congrArg some h.2
  next => exact h

theorem not_opensWithCode_iff : opensWithCode t = false ↔ ∀ rest, skipBlanks t = some rest → holdsNoCode rest = true := by
  unfold opensWithCode
  cases skipBlanks t with
  | none => simp
  | some rest => simp

namespace Scanner

/-- What follows a comment or the end of a line. -/
def afterNoCode : Text → Text
  | [] => []
  | c :: after => if isLineEnd c then afterLineEnd c after else after.dropWhile fun d => !isLineEnd d

theorem afterNoCode_suffix (t : Text) : afterNoCode t <:+ t := by
  cases t with
  | nil => exact List.suffix_refl _
  | cons c after =>
    refine List.IsSuffix.trans ?_ (List.suffix_cons c after)
    show (if isLineEnd c then afterLineEnd c after else after.dropWhile fun d => !isLineEnd d) <:+ after
    split
    next =>
      unfold afterLineEnd
      split
      next => exact List.tail_suffix _
      next => exact List.suffix_refl _
    next => exact List.dropWhile_suffix _

/-- A step over white space and what ends a line without code. -/
theorem step_fromStart (hbefore : beforeToken true t = some rest) (hrest : holdsNoCode rest = true) :
    (fromStart t p).step =
      some ([], fromStart (afterNoCode rest) (p + (t.length - (afterNoCode rest).length))) := by
  have hle := (skips_beforeToken hbefore).suffix.length_le
  have hle' := (afterNoCode_suffix rest).length_le
  have hposition : p + (t.length - rest.length) + (rest.length - (afterNoCode rest).length) =
      p + (t.length - (afterNoCode rest).length) := by omega
  show (fromStart t p).stepCode = _
  unfold stepCode
  rw [show beforeToken (fromStart t p).fresh (fromStart t p).rest = some rest from hbefore, ← hposition]
  cases rest with
  | nil => rfl
  | cons c after =>
    dsimp only
    by_cases hline : isLineEnd c = true
    · rw [takeToken_lineEnd _ _ hline, show afterNoCode (c :: after) = afterLineEnd c after from if_pos hline]
      rfl
    · have hcomment : c = '#' := by simpa [holdsNoCode, hline] using hrest
      rw [show afterNoCode (c :: after) = after.dropWhile fun d => !isLineEnd d from if_neg hline]
      unfold takeToken
      rw [if_neg hline, if_pos hcomment]
      rfl

end Scanner

theorem head?_ne_mark (hcode : opensWithCode t = false) : t.head? ≠ some '\uFEFF' := by
  intro hhead
  obtain ⟨t, rfl⟩ := List.head?_eq_some_iff.mp hhead
  exact Bool.false_ne_true (hcode.symm.trans rfl)

theorem head?_residue_ne_mark (hresidue : ∀ c ∈ residue, isMarginChar c = true) (hne : residue ≠ []) :
    (residue ++ t).head? ≠ some '\uFEFF' := by
  cases residue with
  | nil => exact absurd rfl hne
  | cons c residue =>
    intro hhead
    cases hhead
    exact absurd (hresidue _ (List.mem_cons_self ..)) (by decide)

section Runs
variable {fuel : Nat} {ts : List Token}

theorem not_isEmpty_fromStart (hne : t ≠ []) : ¬ (Scanner.fromStart t p).rest.isEmpty = true := fun h =>
  hne (List.isEmpty_iff.mp h)

/-- A first line that is indented and holds code stops the scanner. -/
theorem run_of_beforeToken_none (hne : t ≠ []) (hbefore : beforeToken true t = none) :
    (Scanner.fromStart t p).run fuel = none := by
  have hstep : (Scanner.fromStart t p).step = none := by
    show (Scanner.fromStart t p).stepCode = none
    unfold Scanner.stepCode
    rw [show beforeToken (Scanner.fromStart t p).fresh (Scanner.fromStart t p).rest = none from hbefore]
  cases fuel with
  | zero => rfl
  | succ fuel => rw [Scanner.run, if_neg (not_isEmpty_fromStart hne), hstep]

/-- After a first line without code the scanner begins anew. -/
theorem run_of_holdsNoCode (hne : t ≠ []) (hbefore : beforeToken true t = some rest) (hrest : holdsNoCode rest = true) :
    (Scanner.fromStart t p).run (fuel + 1) =
      (Scanner.fromStart (Scanner.afterNoCode rest) (p + (t.length - (Scanner.afterNoCode rest).length))).run fuel := by
  rw [Scanner.run, if_neg (not_isEmpty_fromStart hne), Scanner.step_fromStart hbefore hrest]
  exact Option.map_id'

end Runs

/-- A text that begins without code has the same tokens, up to their places, when its first line is indented. -/
theorem tokens_of_not_opensWithCode {ts : List Token} (hne : t ≠ []) (hend : Ended t)
    (hresidue : ∀ c ∈ residue, isMarginChar c = true) (hcode : opensWithCode t = false) (ht : tokens t = some ts) :
    ∃ ts', tokens (residue ++ t) = some ts' ∧ Respaced 0 0 ts ts' := by
  have hmark : (residue ++ t).head? ≠ some '\uFEFF' := by
    by_cases hempty : residue = []
    · rw [hempty]
      exact head?_ne_mark hcode
    · exact head?_residue_ne_mark hresidue hempty
  rw [tokens_eq_run (head?_ne_mark hcode)] at ht
  rw [tokens_eq_run hmark]
  cases hbefore : beforeToken true t with
  | none =>
    rw [run_of_beforeToken_none hne hbefore] at ht
    cases ht
  | some rest =>
    have hskip := skipBlanks_of_beforeToken hbefore
    have hrest := not_opensWithCode_iff.mp hcode rest hskip
    have hbefore' := beforeToken_of_holdsNoCode hresidue hskip hrest
    obtain ⟨more, hmore⟩ : ∃ more, more = Scanner.afterNoCode rest := ⟨_, rfl⟩
    have hshorter : more.length < t.length := by
      rw [hmore]
      exact Scanner.step_shortens hne (Scanner.step_fromStart (p := 0) hbefore hrest)
    have hend' : Ended more := by
      rw [hmore]
      exact hend.of_suffix ((Scanner.afterNoCode_suffix rest).trans (skips_beforeToken hbefore).suffix)
    have hfollows : Scanner.Follows 0 0 (Scanner.fromStart more (0 + (t.length - more.length))) more
        (0 + ((residue ++ t).length - more.length)) :=
      Scanner.follows_fromStart (Narrowed.refl false more) hend' (Nat.zero_le _) fun h => by omega
    rw [run_of_holdsNoCode hne hbefore hrest, ← hmore] at ht
    obtain ⟨ts', hrun, hrespaced⟩ := Scanner.run_follows hfollows ht
    have hrun' : (Scanner.fromStart (residue ++ t) 0).run (t.length + 1) = some ts' := by
      rw [run_of_holdsNoCode (List.append_ne_nil_of_right_ne_nil _ hne) hbefore' hrest, ← hmore]
      exact hrun
    exact ⟨ts', Scanner.run_eq_of_length hrun' (Nat.lt_succ_self _), hrespaced⟩

theorem opensWithCode_narrowed (hend : Ended t) (h : Narrowed false t u) (ht : opensWithCode t = true) :
    opensWithCode u = true := by
  obtain ⟨rest, hskip, hrest⟩ := (Option.any_eq_true _ _).mp ht
  have hbefore : beforeToken false t = some rest := hskip
  obtain ⟨rest', hskip', hnarrowed, -⟩ := beforeToken_narrowed hend h hbefore
  exact (Option.any_eq_true _ _).mpr ⟨rest', hskip', holdsNoCode_eq hnarrowed ▸ hrest⟩

theorem raises_nil : raises [] = false := rfl

/-- **A `raise` statement indented as a whole** is one as long as its first line holds no code. -/
theorem raises_indented_iff (hresidue : ∀ c ∈ residue, isMarginChar c = true) (hhead : ∀ c ∈ t.head?, isBlank c = false)
    (hend : Ended t) (h : Narrowed false t u) (ht : raises t = true) :
    raises (residue ++ u) = true ↔ residue = [] ∨ opensWithCode t = false := by
  have hne : t ≠ [] := by
    rintro rfl
    exact Bool.false_ne_true (raises_nil.symm.trans ht)
  constructor
  · rintro hraise
    by_contra hnot
    rw [not_or, Bool.not_eq_false] at hnot
    obtain ⟨hresidue', hcode⟩ := hnot
    have hbefore : beforeToken true (residue ++ u) = none :=
      beforeToken_of_opensWithCode hresidue hresidue' (h.head?_eq ▸ hhead) (opensWithCode_narrowed hend h hcode)
    obtain ⟨ts, htokens, -⟩ := raises_eq_true_iff.mp hraise
    rw [tokens_eq_run (head?_residue_ne_mark hresidue hresidue'),
      run_of_beforeToken_none (List.append_ne_nil_of_left_ne_nil hresidue' _) hbefore] at htokens
    cases htokens
  · rintro (rfl | hcode)
    · exact raises_narrowed hend h ht
    · obtain ⟨ts, hts, -⟩ := raises_eq_true_iff.mp ht
      obtain ⟨ts', hts', hrespaced⟩ := tokens_of_not_opensWithCode hne hend hresidue hcode hts
      have hlines : '\n' ∉ residue := fun hmem => absurd (hresidue _ hmem) (by decide)
      exact raises_narrowed (hend.append hne residue) (h.append hlines) (raises_of_respaced hrespaced hts hts' ht)

end Indentation
end Traceback.Code
