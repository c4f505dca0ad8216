import Traceback.Proofs.Code.Literal

/-! # Contents of strings with narrower margins

A string is read alike when its own lines have less white space in front; so have those of its contents then.

* `Finds`: that a reader finds narrowed contents in a narrowed text.
* `quoted_narrowed`, `stringText_narrowed`: strings up to their closing quotes, and those with expressions.
* `contentsValid_narrowed`: valid contents remain so.
-/

namespace Traceback.Code
set_option autoImplicit false

open Text (Narrowed)

/-! ## Up to the closing quotes -/

section Contents
variable {atStart : Bool} {t u contents rest : Text}

theorem prepend_eq_some {first : Text} {found : Option (Text × Text)} :
    prepend first found = some (contents, rest) ↔ ∃ more, found = some (more, rest) ∧ contents = first ++ more := by
  constructor
  · intro h
    obtain ⟨⟨more, rest'⟩, hfound, hpair⟩ := Option.map_eq_some_iff.mp h
    cases hpair
    exact ⟨more, hfound, rfl⟩
  · rintro ⟨more, rfl, rfl⟩
    rfl

/-- The reader finds narrowed contents in the narrowed text `u`. -/
def Finds (atStart : Bool) (contents rest : Text) (found : Option (Text × Text)) : Prop :=
  ∃ contents' rest', found = some (contents', rest') ∧ Narrowed atStart contents contents' ∧ Narrowed false rest rest'

theorem prepend_prepend (first second : Text) (found : Option (Text × Text)) :
    prepend first (prepend second found) = prepend (first ++ second) found := by
  cases found with
  | none => rfl
  | some found => exact congrArg (fun t => some (t, found.2)) (List.append_assoc ..).symm

namespace Finds
variable {c : Char} {found : Option (Text × Text)}

theorem keep (h : Finds (c == '\n') contents rest found) : Finds atStart (c :: contents) rest (prepend [c] found) := by
  obtain ⟨contents', rest', rfl, hcontents, hrest⟩ := h
  exact ⟨c :: contents', rest', rfl, .keep hcontents, hrest⟩

theorem drop (hc : Text.isMarginChar c = true) (h : Finds true contents rest found) :
    Finds true (c :: contents) rest found := by
  obtain ⟨contents', rest', hfound, hcontents, hrest⟩ := h
  exact ⟨contents', rest', hfound, .drop hc hcontents, hrest⟩

/-- Behind a backslash. -/
theorem escaped (h : Finds (c == '\n') contents rest found) :
    Finds atStart ('\\' :: c :: contents) rest (prepend ['\\', c] found) := by
  have hkept : Finds atStart _ rest (prepend ['\\'] (prepend [c] found)) := keep (c := '\\') h.keep
  rwa [prepend_prepend] at hkept

/-- Behind a backslash, where a line ends with two characters. -/
theorem escapedLineEnd (h : Finds true contents rest found) :
    Finds atStart ('\\' :: '\r' :: '\n' :: contents) rest (prepend ['\\', '\r', '\n'] found) := by
  have hkept : Finds atStart _ rest (prepend ['\\', '\r'] (prepend ['\n'] found)) := (keep (c := '\n') h).escaped
  rwa [prepend_prepend] at hkept

theorem nil (h : Narrowed false rest u) : Finds atStart [] rest (some ([], u)) := ⟨[], u, rfl, .nil, h⟩

end Finds

/-- What does not follow a character of the line does not follow it in the narrowed text. -/
theorem not_followed {c d : Char} (hc : c ≠ '\n') (hn : Narrowed (c == '\n') t u) (h : ∀ more, t = d :: more → False) :
    ∀ more, u = d :: more → False := by
  rintro more rfl
  rw [beq_false_of_ne hc] at hn
  obtain ⟨t, rfl, -⟩ := hn.cons_right
  exact h t rfl

/-- The same of a given character. -/
theorem not_followed_of_eq {c d e : Char} (hd : d ≠ '\n') (hn : Narrowed (c == '\n') t u)
    (h : ∀ more, c = d → t = e :: more → False) : ∀ more, c = d → u = e :: more → False := by
  rintro more rfl
  exact not_followed hd hn (fun more => h more rfl) more

theorem quotedLine_cons {q c : Char} (hc : c ≠ '\\') (t : Text) : quotedLine q (c :: t) =
    if c = q then some ([], t) else if c = '\n' ∨ c = '\r' then none else prepend [c] (quotedLine q t) := by
  rw [quotedLine]
  · exact fun _ h => absurd h hc
  · exact fun _ _ h => absurd h hc

theorem quotedLine_narrowed {q : Char} (hq : isQuote q = true) (h : Narrowed atStart t u)
    (ht : quotedLine q t = some (contents, rest)) : Finds atStart contents rest (quotedLine q u) := by
  fun_induction quotedLine q t generalizing atStart u contents with
  | case1 => cases ht
  | case2 more ih =>
    obtain ⟨u, rfl, hline⟩ := h.escaped
    obtain ⟨u, rfl, hmore⟩ := Narrowed.cons_left hline
    obtain ⟨found, hfound, rfl⟩ := prepend_eq_some.mp ht
    exact (ih hmore hfound).escapedLineEnd
  | case3 c more hmore ih =>
    obtain ⟨u, rfl, hrest⟩ := h.escaped
    obtain ⟨found, hfound, rfl⟩ := prepend_eq_some.mp ht
    rw [quotedLine]
    · exact (ih hrest hfound).escaped
    · exact not_followed_of_eq (by decide) hrest hmore
  | case4 c more =>
    cases ht
    obtain ⟨u, rfl, hrest⟩ := h.kept (isMarginChar_of_isQuote hq)
    rw [beq_false_of_ne (ne_newline_of_isQuote hq)] at hrest
    rw [quotedLine_cons (ne_backslash_of_isQuote hq), if_pos rfl]
    exact .nil hrest
  | case5 => cases ht
  | case6 c more _ hescaped hc hline ih =>
    obtain ⟨found, hfound, rfl⟩ := prepend_eq_some.mp ht
    have hbackslash : c ≠ '\\' := by
      rintro rfl
      cases more with
      | nil => cases hfound
      | cons d more => exact hescaped d more rfl rfl
    cases h with
    | keep h =>
      rw [quotedLine_cons hbackslash, if_neg hc, if_neg hline]
      exact (ih h hfound).keep
    | drop hmargin h => exact (ih h hfound).drop hmargin

theorem quotedBlock_cons {q c : Char} (hc : c ≠ '\\') (t : Text) : quotedBlock q (c :: t) =
    if c = q ∧ t.take 2 = [q, q] then some ([], t.drop 2) else prepend [c] (quotedBlock q t) := by
  rw [quotedBlock]
  exact fun _ _ h => absurd h hc

theorem take_two_eq_iff {q : Char} {t : Text} : t.take 2 = [q, q] ↔ [q, q] <+: t :=
  ⟨fun h => h ▸ List.take_prefix .., fun h => (List.prefix_iff_eq_take.mp h).symm⟩

theorem quotedBlock_narrowed {q : Char} (hq : isQuote q = true) (h : Narrowed atStart t u)
    (ht : quotedBlock q t = some (contents, rest)) : Finds atStart contents rest (quotedBlock q u) := by
  have hne := ne_newline_of_isQuote hq
  have hquotes : '\n' ∉ [q, q] := by simp [Ne.symm hne]
  fun_induction quotedBlock q t generalizing atStart u contents with
  | case1 => cases ht
  | case2 c more ih =>
    obtain ⟨u, rfl, hrest⟩ := h.escaped
    obtain ⟨found, hfound, rfl⟩ := prepend_eq_some.mp ht
    exact (ih hrest hfound).escaped
  | case3 c more hescaped hc =>
    cases ht
    obtain ⟨rfl, htake⟩ := hc
    obtain ⟨more, rfl⟩ := take_two_eq_iff.mp htake
    obtain ⟨u, rfl, hclosing⟩ := h.kept (isMarginChar_of_isQuote hq)
    rw [beq_false_of_ne hne] at hclosing
    obtain ⟨u, rfl, hrest⟩ := hclosing.append_left hquotes
    rw [quotedBlock_cons (ne_backslash_of_isQuote hq), if_pos ⟨rfl, rfl⟩]
    exact .nil hrest
  | case4 c more hescaped hc ih =>
    obtain ⟨found, hfound, rfl⟩ := prepend_eq_some.mp ht
    have hbackslash : c ≠ '\\' := by
      rintro rfl
      cases more with
      | nil => cases hfound
      | cons d more => exact hescaped d more rfl rfl
    cases h with
    | @keep _ _ _ u h =>
      have hclosing : ¬ (c = q ∧ u.take 2 = [q, q]) := by
        rintro ⟨rfl, htake⟩
        rw [beq_false_of_ne hne] at h
        exact hc ⟨rfl, take_two_eq_iff.mpr ((h.prefix_iff hquotes).mpr (take_two_eq_iff.mp htake))⟩
      rw [quotedBlock_cons hbackslash, if_neg hclosing]
      exact (ih h hfound).keep
    | drop hmargin h => exact (ih h hfound).drop hmargin

theorem quoted_narrowed {head : StringHead} (hq : isQuote head.quote = true) (h : Narrowed false t u)
    (ht : quoted head t = some (contents, rest)) : Finds false contents rest (quoted head u) := by
  unfold quoted at ht ⊢
  split
  next htriple =>
    rw [if_pos htriple] at ht
    exact quotedBlock_narrowed hq h ht
  next htriple =>
    rw [if_neg htriple] at ht
    exact quotedLine_narrowed hq h ht

theorem stringText_named (s : StringHead) (inFormat : Bool) (t : Text) :
    stringText s inFormat true ('}' :: t) = prepend ['}'] (stringText s inFormat false t) := by
  by_cases ht : ∃ more, t = '}' :: more
  · obtain ⟨more, rfl⟩ := ht
    rw [stringText, if_pos rfl]
  · rw [stringText, if_pos rfl]
    exact fun more heq => ht ⟨more, heq⟩

theorem stringText_narrowed {s : StringHead} {inFormat named : Bool} (hq : isQuote s.quote = true)
    (h : Narrowed atStart t u) (ht : stringText s inFormat named t = some (contents, rest)) :
    Finds atStart contents rest (stringText s inFormat named u) := by
  have hne := ne_newline_of_isQuote hq
  fun_induction stringText s inFormat named t generalizing atStart u contents with
  | case1 | case2 | case16 => cases ht
  -- behind a backslash, the contents go on
  | case3 named after ih | case4 named after ih =>
    obtain ⟨u, rfl, hrest⟩ := h.kept rfl
    obtain ⟨more, hmore, rfl⟩ := prepend_eq_some.mp ht
    obtain ⟨v, rfl, -⟩ := Narrowed.kept rfl hrest
    rw [stringText]
    exact (ih hrest hmore).keep
  | case5 named after hraw ih =>
    obtain ⟨u, rfl, hbrace⟩ := h.escaped
    obtain ⟨more, hmore, rfl⟩ := prepend_eq_some.mp ht
    obtain ⟨v, rfl, -⟩ := Narrowed.kept rfl hbrace
    rw [stringText, if_pos hraw]
    exact (ih hbrace hmore).escaped
  | case6 named after hraw ih =>
    obtain ⟨u, rfl, hbrace⟩ := h.escaped
    obtain ⟨more, hmore, rfl⟩ := prepend_eq_some.mp ht
    obtain ⟨v, rfl, hrest⟩ := Narrowed.kept rfl hbrace
    rw [stringText, if_neg hraw]
    have hfound : Finds atStart _ rest (prepend ['\\', 'N'] (prepend ['\x7b'] (stringText s inFormat true v))) :=
      (Finds.keep (ih hrest hmore)).escaped
    rwa [prepend_prepend] at hfound
  | case7 named after ih =>
    obtain ⟨u, rfl, hline⟩ := h.escaped
    obtain ⟨v, rfl, hrest⟩ := Narrowed.cons_left hline
    obtain ⟨more, hmore, rfl⟩ := prepend_eq_some.mp ht
    rw [stringText]
    exact (ih hrest hmore).escapedLineEnd
  | case8 named c after hopen hclose hname hreturn ih =>
    obtain ⟨u, rfl, hrest⟩ := h.escaped
    obtain ⟨more, hmore, rfl⟩ := prepend_eq_some.mp ht
    rw [stringText]
    · exact (ih hrest hmore).escaped
    · exact hopen
    · exact hclose
    · exact not_followed_of_eq (by decide) hrest hname
    · exact not_followed_of_eq (by decide) hrest hreturn
  -- a brace stands for itself when it is written twice, outside formats
  | case9 named after hformat =>
    cases ht
    have hall := h.of_cons rfl
    obtain ⟨u, rfl, hbrace⟩ := h.kept rfl
    obtain ⟨v, rfl, -⟩ := Narrowed.kept rfl hbrace
    rw [stringText, if_pos hformat]
    exact .nil hall
  | case10 named after hformat ih =>
    obtain ⟨u, rfl, hbrace⟩ := h.kept rfl
    obtain ⟨v, rfl, hrest⟩ := Narrowed.kept rfl hbrace
    obtain ⟨more, hmore, rfl⟩ := prepend_eq_some.mp ht
    rw [stringText, if_neg hformat]
    exact (ih hrest hmore).keep
  | case11 named more hmore =>
    cases ht
    have hall := h.of_cons rfl
    obtain ⟨u, rfl, hrest⟩ := h.kept rfl
    rw [stringText]
    · exact .nil hall
    · exact not_followed (by decide) hrest hmore
  | case12 more ih =>
    obtain ⟨u, rfl, hrest⟩ := h.kept rfl
    obtain ⟨found, hfound, rfl⟩ := prepend_eq_some.mp ht
    rw [stringText_named]
    exact (ih hrest hfound).keep
  | case13 named hnamed after hformat =>
    cases ht
    have hall := h.of_cons rfl
    obtain ⟨u, rfl, hbrace⟩ := h.kept rfl
    obtain ⟨v, rfl, -⟩ := Narrowed.kept rfl hbrace
    rw [stringText, if_neg hnamed, if_pos hformat]
    exact .nil hall
  | case14 named hnamed after hformat ih =>
    obtain ⟨u, rfl, hbrace⟩ := h.kept rfl
    obtain ⟨v, rfl, hrest⟩ := Narrowed.kept rfl hbrace
    obtain ⟨more, hmore, rfl⟩ := prepend_eq_some.mp ht
    rw [stringText, if_neg hnamed, if_neg hformat]
    exact (ih hrest hmore).keep
  | case15 named more hnamed hmore =>
    cases ht
    have hall := h.of_cons rfl
    obtain ⟨u, rfl, hrest⟩ := h.kept rfl
    rw [stringText, if_neg hnamed]
    · exact .nil hall
    · exact not_followed (by decide) hrest hmore
  -- what looks like the closing quotes stands on one line
  | case17 named c more hbackslash hopen hclose hline hquote =>
    cases ht
    obtain ⟨rfl, hclosing⟩ := hquote
    have hall := h.of_cons (isMarginChar_of_isQuote hq)
    obtain ⟨u, rfl, hrest⟩ := h.kept (isMarginChar_of_isQuote hq)
    rw [beq_false_of_ne hne] at hrest
    have hclosing' : s.triple = false ∨ u.take 2 = [s.quote, s.quote] := by
      rwa [take_two_eq_iff, ← hrest.prefix_iff (by simp [Ne.symm hne]), ← take_two_eq_iff]
    rw [stringText, if_neg hline, if_pos ⟨rfl, hclosing'⟩]
    · exact .nil hall
    · exact hbackslash
    · exact hopen
    · exact hclose
  | case18 named c more hbackslash hopen hclose hline hquote ih =>
    obtain ⟨found, hfound, rfl⟩ := prepend_eq_some.mp ht
    cases h with
    | @keep _ _ _ u hrest =>
      have hquote' : ¬ (c = s.quote ∧ (s.triple = false ∨ u.take 2 = [c, c])) := by
        rintro ⟨rfl, hclosing⟩
        rw [beq_false_of_ne hne] at hrest
        rw [take_two_eq_iff, ← hrest.prefix_iff (by simp [Ne.symm hne]), ← take_two_eq_iff] at hclosing
        exact hquote ⟨rfl, hclosing⟩
      rw [stringText, if_neg hline, if_neg hquote']
      · exact (ih hrest hfound).keep
      · exact hbackslash
      · exact hopen
      · exact hclose
    | drop hmargin hrest => exact (ih hrest hfound).drop hmargin

end Contents

/-! ## Valid contents -/

section Valid
variable {atStart : Bool} {t u : Text}

/-- Digits behind an escape letter stand on its line. -/
theorem take_hex_eq {n : Nat} (h : Narrowed false t u) (hlength : (t.take n).length = n)
    (hhex : (t.take n).all isHex = true) : u.take n = t.take n := by
  have hcode : '\n' ∉ t.take n := fun hmem => absurd (List.all_eq_true.mp hhex _ hmem) (by decide)
  obtain ⟨more, hmore⟩ := (h.prefix_iff hcode).mp (List.take_prefix ..)
  rw [← hmore, List.take_append_of_le_length hlength.ge, List.take_take, Nat.min_self]

theorem namedEscape_narrowed (h : Narrowed false t u) (ht : namedEscape t = true) : namedEscape u = true := by
  unfold namedEscape at ht
  split at ht
  next t =>
    obtain ⟨u, rfl, htail⟩ := h.tail (by decide)
    simp only [Bool.and_eq_true, decide_eq_true_eq] at ht
    obtain ⟨⟨hlength, hne⟩, hname⟩ := ht
    -- the name ends on its line, with a brace
    generalize hname' : t.takeWhile (· != '}') = name at hlength hne hname
    have hclosed : name ++ ['}'] <+: t := by
      have hsplit := List.takeWhile_append_dropWhile (p := (· != '}')) (l := t)
      rw [hname'] at hsplit
      cases hafter : t.dropWhile (· != '}') with
      | nil =>
        rw [hafter, List.append_nil] at hsplit
        rw [hsplit] at hlength
        exact absurd hlength (Nat.lt_irrefl _)
      | cons d more =>
        have hd := List.head?_dropWhile_not (· != '}') t
        rw [hafter] at hd hsplit
        obtain rfl : d = '}' := by simpa using hd
        exact ⟨more, by rw [← hsplit, List.append_assoc]; rfl⟩
    have hnewline : '\n' ∉ name ++ ['}'] := by
      rw [List.mem_append, not_or]
      exact ⟨fun hmem => absurd (List.all_eq_true.mp hname _ hmem) (by decide), by decide⟩
    obtain ⟨more, rfl⟩ := (htail.prefix_iff hnewline).mp hclosed
    have hbrace : ∀ c ∈ name, (c != '}') = true := by
      rw [← hname']
      exact List.all_eq_true.mp List.all_takeWhile
    have hfound : (name ++ ['}'] ++ more).takeWhile (· != '}') = name := by
      rw [List.append_assoc, List.takeWhile_append_of_pos hbrace]
      exact List.append_nil name
    rw [namedEscape, hfound, hname, Bool.and_true, Bool.and_eq_true, decide_eq_true_eq]
    exact ⟨by simp, hne⟩
  next => cases ht

theorem escapesValid_cons {wide : Bool} {c : Char} (hc : c ≠ '\\') (t : Text) :
    escapesValid wide (c :: t) = escapesValid wide t := by
  rw [escapesValid]
  exact fun _ _ h => absurd h hc

theorem escapesValid_narrowed {wide : Bool} (h : Narrowed atStart t u) (ht : escapesValid wide t = true) :
    escapesValid wide u = true := by
  fun_induction escapesValid wide t generalizing atStart u with
  | case1 =>
    rw [h.nil_left]
    rfl
  | case2 c more ih =>
    obtain ⟨u, rfl, hrest⟩ := h.escaped
    rw [Bool.and_eq_true] at ht
    rw [escapesValid, ih hrest ht.2, Bool.and_true]
    by_cases hc : c = '\n'
    · rw [hc, show escapeWidth? wide '\n' = none from rfl]
      simp
    · rw [beq_false_of_ne hc] at hrest
      cases hwidth : escapeWidth? wide c with
      | some n =>
        have hcode := ht.1
        simp only [hwidth, Bool.and_eq_true, beq_iff_eq] at hcode
        dsimp only
        rw [take_hex_eq hrest hcode.1.1 hcode.1.2]
        simpa only [hwidth] using ht.1
      | none =>
        have hname := ht.1
        simp only [hwidth, Bool.or_eq_true] at hname ⊢
        exact hname.imp_right (namedEscape_narrowed hrest)
  | case3 c more hescaped ih =>
    cases h with
    | keep hrest =>
      by_cases hc : c = '\\'
      · subst hc
        cases more with
        | nil =>
          rw [hrest.nil_left]
          rfl
        | cons d more => exact absurd rfl (hescaped d more rfl)
      · rw [escapesValid_cons hc]
        exact ih hrest ht
    | drop _ hrest => exact ih hrest ht

theorem contentsValid_narrowed {head : StringHead} (h : Narrowed false t u) (ht : contentsValid head t = true) :
    contentsValid head u = true := by
  have hescapes : ∀ wide, (head.raw || escapesValid wide t) = true → (head.raw || escapesValid wide u) = true := by
    intro wide hvalid
    rw [Bool.or_eq_true] at hvalid ⊢
    exact hvalid.imp_right (escapesValid_narrowed h)
  unfold contentsValid at ht ⊢
  split at ht
  next =>
    rw [Bool.and_eq_true, List.all_eq_true] at ht ⊢
    exact ⟨fun c hc => ht.1 c (h.sublist.subset hc), hescapes false ht.2⟩
  next => exact hescapes true ht

end Valid

end Traceback.Code
