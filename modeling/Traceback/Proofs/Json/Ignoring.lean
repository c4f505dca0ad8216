import Traceback.Proofs.Json.Reading

/-! # Values nobody asked for

Any value at all is passed over, nested to any depth.

* `ignoredStringWithin_append`, `ignoredNumber_append`: strings and numbers are.
* `passed`: so are values, by induction on how they are nested.
* `reads_ignored`: the fuel that the reader starts with is enough.
-/

namespace Traceback.Json
set_option autoImplicit false

namespace Read

/-! ## Strings -/

theorem ignoredStringWithin_append {inner : Text} (h : IsInner inner) {fuel : Nat} (hfuel : inner.length < fuel)
    (rest : Text) (p : Place) : ∃ q, ignoredStringWithin fuel ⟨inner ++ '"' :: rest, p⟩ = .ok ((), ⟨rest, q⟩) := by
  induction h generalizing fuel p with
  | nil =>
    obtain ⟨fuel, rfl⟩ : ∃ n, fuel = n + 1 := ⟨fuel - 1, by omega⟩
    exact ⟨_, rfl⟩
  | @plain c inner hc _ ih =>
    rw [List.length_cons] at hfuel
    obtain ⟨fuel, rfl⟩ : ∃ n, fuel = n + 1 := ⟨fuel - 1, by omega⟩
    have hinner : inner.length < fuel := by omega
    obtain ⟨q, hq⟩ := ih hinner (p.after c)
    obtain ⟨-, hquote, hslash⟩ := id hc
    refine ⟨q, ?_⟩
    rw [List.cons_append, ignoredStringWithin, bind_ok (peek_cons ..)]
    simp only [isControl_eq_false hc, Bool.false_eq_true, if_false]
    rw [bind_ok (skip_cons ..)]
    exact hq
  | @letter l c inner hl _ ih =>
    rw [List.length_cons, List.length_cons] at hfuel
    obtain ⟨fuel, rfl⟩ : ∃ n, fuel = n + 1 := ⟨fuel - 1, by omega⟩
    have hinner : inner.length < fuel := by omega
    obtain ⟨q, hq⟩ := ih hinner ((p.after '\\').after l)
    obtain ⟨hu, hletter⟩ := escapeLetter?_eq hl
    refine ⟨q, ?_⟩
    rw [List.cons_append, List.cons_append, ignoredStringWithin, bind_ok (peek_cons ..)]
    simp only
    rw [bind_ok (skip_cons ..), bind_ok (next_cons ..)]
    simp only [hletter, Option.isSome_some, if_true]
    exact hq
  | @code n ds inner hds _ ih =>
    rw [List.length_cons, List.length_cons, List.length_append] at hfuel
    obtain ⟨fuel, rfl⟩ : ∃ n, fuel = n + 1 := ⟨fuel - 1, by omega⟩
    obtain ⟨q, hq⟩ := hexCode_append hds (inner ++ '"' :: rest) ((p.after '\\').after 'u')
    have hinner : inner.length < fuel := by omega
    obtain ⟨q', hq'⟩ := ih hinner q
    refine ⟨q', ?_⟩
    rw [List.cons_append, List.cons_append, List.append_assoc, ignoredStringWithin, bind_ok (peek_cons ..)]
    simp only
    rw [bind_ok (skip_cons ..), bind_ok (next_cons ..)]
    simp only
    rw [bind_ok hq]
    exact hq'

theorem ignoredString_append {inner : Text} (h : IsInner inner) (rest : Text) (p : Place) :
    ∃ q, ignoredString ⟨inner ++ '"' :: rest, p⟩ = .ok ((), ⟨rest, q⟩) := by
  have hfuel : inner.length < (inner ++ '"' :: rest).length + 1 := by
    rw [List.length_append]
    omega
  obtain ⟨q, hq⟩ := ignoredStringWithin_append h hfuel rest p
  exact ⟨q, by rw [ignoredString, bind_ok (get_ok _)]; exact hq⟩

/-! ## Numbers -/

theorem ignoredExponent_append {e : Char} {sign ds : Text} (hsign : sign ∈ [[], ['+'], ['-']]) (hds : IsDigits ds)
    {rest : Text} (hrest : ∀ d ∈ rest.head?, isDigit d = false) (p : Place) :
    ∃ q, ignoredExponent ⟨e :: (sign ++ (ds ++ rest)), p⟩ = .ok ((), ⟨rest, q⟩) := by
  obtain ⟨hne, hdigits⟩ := hds
  obtain ⟨c, ds, rfl⟩ := List.exists_cons_of_ne_nil hne
  obtain ⟨hc, htail⟩ := List.forall_mem_cons.mp hdigits
  have hread : ∀ q, ∃ q', digits ⟨ds ++ rest, q⟩ = .ok (ds.map fun d => d.toNat - 48, ⟨rest, q'⟩) :=
    digits_append htail hrest
  have hsigned : sign = [] ∨ ∃ d, sign = [d] ∧ (d = '+' ∨ d = '-') := by
    simp only [List.mem_cons, List.not_mem_nil, or_false] at hsign
    rcases hsign with rfl | rfl | rfl
    · exact .inl rfl
    · exact .inr ⟨'+', rfl, .inl rfl⟩
    · exact .inr ⟨'-', rfl, .inr rfl⟩
  rcases hsigned with rfl | ⟨d, rfl, hd⟩
  · have hplus : c ≠ '+' := by
      rintro rfl
      cases hc
    have hminus : c ≠ '-' := by
      rintro rfl
      cases hc
    obtain ⟨q, hq⟩ := hread ((p.after e).after c)
    refine ⟨q, ?_⟩
    rw [List.nil_append, ignoredExponent, bind_ok (skip_cons ..), List.cons_append, bind_ok (peek_cons ..)]
    simp only [Option.some.injEq, hplus, hminus, imp_self]
    rw [bind_ok (next_cons ..)]
    simp only [isDigit_eq, hc, if_true]
    exact bind_ok hq
  · obtain ⟨q, hq⟩ := hread (((p.after e).after d).after c)
    refine ⟨q, ?_⟩
    rw [List.singleton_append, ignoredExponent, bind_ok (skip_cons ..), bind_ok (peek_cons ..)]
    rcases hd with rfl | rfl
    all_goals
      simp only
      rw [bind_ok (skip_cons ..), List.cons_append, bind_ok (next_cons ..)]
      simp only [isDigit_eq, hc, if_true]
      exact bind_ok hq

theorem exponent_append {exponent : Text} (h : IsExponent exponent) {rest : Text} (hrest : Stops rest) (p : Place) :
    ∃ q, (if isExponentMark (exponent ++ rest).head? then ignoredExponent else pure ()) ⟨exponent ++ rest, p⟩ =
      .ok ((), ⟨rest, q⟩) := by
  have hstop := not_digit_of_stops hrest
  cases h with
  | absent =>
    have hmark : isExponentMark rest.head? = false := by
      cases hhead : rest.head? with
      | none => rfl
      | some d => simp [isExponentMark, (hstop d hhead).2.2]
    exact ⟨p, by rw [List.nil_append, hmark]; rfl⟩
  | @mark e sign ds he hsign hds =>
    obtain ⟨q, hq⟩ := ignoredExponent_append (e := e) hsign hds (fun d hd => (hstop d hd).1) p
    have hmark : isExponentMark (some e) = true := by rcases he with rfl | rfl <;> rfl
    refine ⟨q, ?_⟩
    rw [List.cons_append, List.append_assoc, List.head?_cons, hmark]
    exact hq

/-- Neither a fraction nor an exponent begins with a digit. -/
theorem not_digit_of_parts {fraction exponent rest : Text} (hfraction : IsFraction fraction)
    (hexponent : IsExponent exponent) (hrest : Stops rest) :
    ∀ c ∈ (fraction ++ (exponent ++ rest)).head?, isDigit c = false := by
  cases hfraction with
  | point _ => rintro c ⟨⟩; rfl
  | absent =>
    cases hexponent with
    | absent => exact fun c hc => (not_digit_of_stops hrest c hc).1
    | mark he _ _ =>
      rintro c ⟨⟩
      rcases he with rfl | rfl <;> rfl

/-- A number whose sign has been taken. -/
theorem ignoredNumber_append {whole fraction exponent : Text} (hwhole : IsWhole whole) (hfraction : IsFraction fraction)
    (hexponent : IsExponent exponent) {rest : Text} (hrest : Stops rest) (p : Place) :
    ∃ q, ignoredNumber ⟨whole ++ (fraction ++ (exponent ++ rest)), p⟩ = .ok ((), ⟨rest, q⟩) := by
  obtain ⟨c, ds, rfl⟩ := List.exists_cons_of_ne_nil hwhole.1.1
  obtain ⟨hc, hds⟩ := List.forall_mem_cons.mp hwhole.1.2
  have hstop := not_digit_of_parts hfraction hexponent hrest
  obtain ⟨q, hq⟩ := digits_append hds hstop (p.after c)
  rw [List.cons_append, ignoredNumber, bind_ok (next_cons ..)]
  simp only [isDigit_eq, hc, Bool.not_true, Bool.false_eq_true, if_false]
  rw [bind_ok (peek_ok ..), if_neg (single_zero hwhole hstop)]
  rw [bind_ok hq, bind_ok (peek_ok ..)]
  cases hfraction with
  | absent =>
    obtain ⟨q', hq'⟩ := exponent_append hexponent hrest q
    have hpoint : (exponent ++ rest).head? ≠ some '.' := by
      cases hexponent with
      | absent => exact fun h => (not_digit_of_stops hrest _ h).2.1 rfl
      | mark he _ _ => rcases he with rfl | rfl <;> rintro ⟨⟩
    exact ⟨q', by rw [List.nil_append, if_neg hpoint]; exact hq'⟩
  | @point fs hfs =>
    have hfirst : ∀ c ∈ (exponent ++ rest).head?, isDigit c = false := not_digit_of_parts .absent hexponent hrest
    obtain ⟨q', hq'⟩ := digits_append hfs.2 hfirst (q.after '.')
    obtain ⟨q'', hq''⟩ := exponent_append hexponent hrest q'
    have hsome : (fs.map fun d => d.toNat - 48).isEmpty = false := by simp [hfs.1]
    refine ⟨q'', ?_⟩
    rw [List.cons_append, List.head?_cons, if_pos rfl, bind_ok (skip_cons ..), bind_ok hq', hsome]
    simp only [Bool.false_eq_true, if_false]
    rw [bind_ok (peek_ok ..)]
    exact hq''

/-! ## Values -/

/-- A value begins neither with white space nor with what ends a list or an object. -/
theorem head_of_isValue {t : Text} (h : IsValue t) :
    ∃ c rest, t = c :: rest ∧ isSpace c = false ∧ c ≠ ']' ∧ c ≠ '}' := by
  cases h with
  | null => exact ⟨_, _, rfl, by decide⟩
  | yes => exact ⟨_, _, rfl, by decide⟩
  | no => exact ⟨_, _, rfl, by decide⟩
  | string h =>
    cases h
    exact ⟨_, _, rfl, by decide⟩
  | list hbody hitems => exact ⟨_, _, rfl, by decide⟩
  | object hbody hkeys hvalues => exact ⟨_, _, rfl, by decide⟩
  | number h =>
    obtain ⟨hsign, hwhole, hfraction, hexponent⟩ := h
    obtain ⟨c, ds, rfl⟩ := List.exists_cons_of_ne_nil hwhole.1.1
    have hc : c.isDigit = true := hwhole.1.2 c (List.mem_cons_self ..)
    simp only [List.mem_cons, List.not_mem_nil, or_false] at hsign
    rcases hsign with rfl | rfl
    · refine ⟨c, _, rfl, isSpace_of_isDigit hc, ?_, ?_⟩
      · rintro rfl
        cases hc
      · rintro rfl
        cases hc
    · exact ⟨'-', _, rfl, by decide⟩

/-- A value is not empty, so that there is fuel to begin it. -/
theorem exists_fuel {t : Text} (h : IsValue t) {fuel : Nat} (hfuel : 2 * t.length ≤ fuel) : ∃ n, fuel = n + 1 := by
  obtain ⟨c, tail, rfl, -⟩ := head_of_isValue h
  rw [List.length_cons] at hfuel
  exact ⟨fuel - 1, by omega⟩

/-- The value is passed over with two units of fuel for each of its characters. -/
def Passed (t : Text) : Prop := ∀ fuel, 2 * t.length ≤ fuel → Reads (ignoredWithin fuel) t ()

theorem ignoredElements_append {items : List Text} {s : Text} (h : Row items s)
    (hitems : ∀ t ∈ items, Passed t) {fuel : Nat}
    (hfuel : 2 * s.length < fuel) (rest : Text) (p : Place) :
    ∃ q, ignoredElements fuel ⟨s ++ ']' :: rest, p⟩ = .ok ((), ⟨rest, q⟩) := by
  obtain ⟨fuel, rfl⟩ : ∃ n, fuel = n + 1 := ⟨fuel - 1, by omega⟩
  induction h generalizing fuel p with
  | @last before item after hbefore hafter =>
    simp only [List.length_append] at hfuel
    obtain ⟨q, hq⟩ := hitems item (List.mem_singleton_self item) fuel (by omega) p hbefore
      (stops_spaces hafter (c := ']') (by decide) rest)
    obtain ⟨q', hq'⟩ := token_spaces hafter (c := ']') rfl rest q
    refine ⟨q'.after ']', ?_⟩
    rw [List.append_assoc, List.append_assoc, ignoredElements, bind_ok hq, bind_ok hq']
    rfl
  | @next before item after tail items hbefore hafter _ ih =>
    simp only [List.length_append, List.length_cons] at hfuel
    -- The comma leaves fuel for one more call.
    obtain ⟨hitem, hitems⟩ := List.forall_mem_cons.mp hitems
    obtain ⟨fuel', rfl⟩ : ∃ n, fuel = n + 1 := ⟨fuel - 1, by omega⟩
    obtain ⟨q, hq⟩ := hitem (fuel' + 1) (by omega) p hbefore
      (stops_spaces hafter (c := ',') (by decide) (tail ++ ']' :: rest))
    obtain ⟨q', hq'⟩ := token_spaces hafter (c := ',') rfl (tail ++ ']' :: rest) q
    obtain ⟨q'', hq''⟩ := ih hitems (q'.after ',') fuel' (by omega)
    refine ⟨q'', ?_⟩
    simp only [List.append_assoc, List.cons_append]
    rw [ignoredElements, bind_ok hq, bind_ok hq']
    exact hq''

theorem length_text (x : Pair) :
    x.text.length = x.key.length + x.before.length + 1 + x.after.length + x.value.length := by
  simp only [Pair.text, List.length_append, List.length_cons]
  omega

theorem head_of_pair {x : Pair} (h : IsString x.key) :
    ∃ c rest, x.text = c :: rest ∧ isSpace c = false ∧ c ≠ '}' := by
  obtain ⟨key, front, back, value⟩ := x
  obtain ⟨_⟩ := h
  exact ⟨'"', _, rfl, by decide⟩

/-- One member is passed over, and the rest goes on behind it. -/
theorem ignoredMembers_pair {x : Pair} (hkey : IsString x.key) (hspaced : x.Spaced) {fuel : Nat}
    (hvalue : Reads (ignoredWithin fuel) x.value ()) {before : Text} (hbefore : Spaces before) {rest : Text}
    (hrest : Stops rest) (p : Place) :
    ∃ q, ignoredMembers (fuel + 1) ⟨before ++ (x.text ++ rest), p⟩ = (do
      match ← token with
      | none => faultHere (.ended .object)
      | some ',' =>
        skip
        ignoredMembers fuel
      | some '}' => skip
      | some _ => faultAhead .expectedObjectCommaOrEnd) ⟨rest, q⟩ := by
  obtain ⟨key, front, back, value⟩ := x
  obtain ⟨hfront, hback⟩ := hspaced
  obtain ⟨hinner⟩ := hkey
  have htext : ∀ inner : Text, before ++ (Pair.text ⟨'"' :: (inner ++ ['"']), front, back, value⟩ ++ rest) =
      before ++ '"' :: (inner ++ '"' :: (front ++ ':' :: (back ++ (value ++ rest)))) := by simp [Pair.text]
  obtain ⟨q₁, h₁⟩ := token_spaces hbefore (c := '"') rfl (_ ++ '"' :: (front ++ ':' :: (back ++ (value ++ rest)))) p
  obtain ⟨q₂, h₂⟩ := ignoredString_append hinner (front ++ ':' :: (back ++ (value ++ rest))) (q₁.after '"')
  obtain ⟨q₃, h₃⟩ := token_spaces hfront (c := ':') rfl (back ++ (value ++ rest)) q₂
  obtain ⟨q₄, h₄⟩ := hvalue (q₃.after ':') hback hrest
  refine ⟨q₄, ?_⟩
  rw [htext, ignoredMembers, bind_ok h₁]
  simp only
  rw [bind_ok (skip_cons ..), bind_ok h₂, bind_ok h₃]
  simp only
  rw [bind_ok (skip_cons ..)]
  exact bind_ok h₄

theorem ignoredMembers_append {pairs : List Pair} {s : Text} (h : Row (pairs.map Pair.text) s)
    (hkeys : ∀ x ∈ pairs, IsString x.key ∧ x.Spaced)
    (hvalues : ∀ x ∈ pairs, Passed x.value)
    {fuel : Nat} (hfuel : 2 * s.length < fuel) (rest : Text) (p : Place) :
    ∃ q, ignoredMembers fuel ⟨s ++ '}' :: rest, p⟩ = .ok ((), ⟨rest, q⟩) := by
  obtain ⟨fuel, rfl⟩ : ∃ n, fuel = n + 1 := ⟨fuel - 1, by omega⟩
  generalize htexts : pairs.map Pair.text = texts at h
  induction h generalizing pairs fuel p with
  | @last before item after hbefore hafter =>
    obtain ⟨x, rfl, rfl⟩ := List.map_eq_singleton_iff.mp htexts
    obtain ⟨hkey, hspaced⟩ := hkeys x (List.mem_singleton_self x)
    have hvalue := hvalues x (List.mem_singleton_self x) fuel
    simp only [List.length_append, length_text] at hfuel
    obtain ⟨q, hq⟩ := ignoredMembers_pair hkey hspaced (hvalue (by omega)) hbefore
      (stops_spaces hafter (c := '}') (by decide) rest) p
    obtain ⟨q', hq'⟩ := token_spaces hafter (c := '}') rfl rest q
    refine ⟨q'.after '}', ?_⟩
    rw [List.append_assoc, List.append_assoc, hq, bind_ok hq']
    rfl
  | @next before item after tail items hbefore hafter _ ih =>
    obtain ⟨x, pairs, rfl, rfl, rfl⟩ := List.map_eq_cons_iff.mp htexts
    obtain ⟨⟨hkey, hspaced⟩, hkeys⟩ := List.forall_mem_cons.mp hkeys
    obtain ⟨hvalue, hvalues⟩ := List.forall_mem_cons.mp hvalues
    simp only [List.length_append, List.length_cons, length_text] at hfuel
    obtain ⟨fuel', rfl⟩ : ∃ n, fuel = n + 1 := ⟨fuel - 1, by omega⟩
    obtain ⟨q, hq⟩ := ignoredMembers_pair hkey hspaced (hvalue (fuel' + 1) (by omega)) hbefore
      (stops_spaces hafter (c := ',') (by decide) (tail ++ '}' :: rest)) p
    obtain ⟨q', hq'⟩ := token_spaces hafter (c := ',') rfl (tail ++ '}' :: rest) q
    obtain ⟨q'', hq''⟩ := ih hkeys hvalues (q'.after ',') fuel' (by omega) rfl
    refine ⟨q'', ?_⟩
    simp only [List.append_assoc, List.cons_append]
    rw [hq, bind_ok hq']
    exact hq''

theorem ignoredWithin_word {c : Char} {letters : Text}
    (h : (c, letters) ∈ [('n', ['u', 'l', 'l']), ('t', ['r', 'u', 'e']), ('f', ['a', 'l', 's', 'e'])]) (fuel : Nat) :
    Reads (ignoredWithin (fuel + 1)) (c :: letters) () := by
  have hspace : ∀ w ∈ [('n', ['u', 'l', 'l']), ('t', ['r', 'u', 'e']), ('f', ['a', 'l', 's', 'e'])],
      isSpace w.1 = false := by decide
  intro before rest p hbefore _
  obtain ⟨q, hq⟩ := token_spaces hbefore (hspace _ h) (letters ++ rest) p
  obtain ⟨q', hq'⟩ := word_append letters rest (q.after c)
  refine ⟨q', ?_⟩
  rw [List.cons_append, ignoredWithin, bind_ok hq]
  simp only [List.mem_cons, Prod.mk.injEq, List.not_mem_nil, or_false] at h
  rcases h with ⟨rfl, rfl⟩ | ⟨rfl, rfl⟩ | ⟨rfl, rfl⟩
  all_goals exact hq'

theorem ignoredWithin_number {t : Text} (h : IsNumber t) (fuel : Nat) : Reads (ignoredWithin (fuel + 1)) t () := by
  obtain ⟨hsign, hwhole, hfraction, hexponent⟩ := h
  intro before rest p hbefore hrest
  have hnumber := ignoredNumber_append hwhole hfraction hexponent hrest
  simp only [List.append_assoc]
  simp only [List.mem_cons, List.not_mem_nil, or_false] at hsign
  rcases hsign with rfl | rfl
  · obtain ⟨c, ds, rfl⟩ := List.exists_cons_of_ne_nil hwhole.1.1
    have hc : c.isDigit = true := hwhole.1.2 c (List.mem_cons_self ..)
    obtain ⟨q, hq⟩ := token_spaces hbefore (isSpace_of_isDigit hc) _ p
    obtain ⟨q', hq'⟩ := hnumber q
    have hword : ∀ d ∈ ['n', 't', 'f', '-'], c ≠ d := by
      rintro d hd rfl
      have hall : ∀ d ∈ ['n', 't', 'f', '-'], d.isDigit = false := by simp
      rw [hall c hd] at hc
      cases hc
    refine ⟨q', ?_⟩
    rw [List.nil_append, List.cons_append, ignoredWithin, bind_ok hq]
    simp only
    rw [if_neg (hword 'n' (by decide)), if_neg (hword 't' (by decide)), if_neg (hword 'f' (by decide)),
      if_neg (hword '-' (by decide)), if_pos (by rw [isDigit_eq, hc])]
    exact hq'
  · obtain ⟨q, hq⟩ := token_spaces hbefore (c := '-') rfl _ p
    obtain ⟨q', hq'⟩ := hnumber (q.after '-')
    exact ⟨q', by rw [List.singleton_append, ignoredWithin, bind_ok hq]; exact hq'⟩

theorem ignoredWithin_string {t : Text} (h : IsString t) (fuel : Nat) : Reads (ignoredWithin (fuel + 1)) t () := by
  obtain ⟨hinner⟩ := h
  intro before rest p hbefore _
  rw [List.cons_append, List.append_assoc]
  obtain ⟨q, hq⟩ := token_spaces hbefore (c := '"') rfl (_ ++ (['"'] ++ rest)) p
  obtain ⟨q', hq'⟩ := ignoredString_append hinner rest (q.after '"')
  exact ⟨q', by rw [ignoredWithin, bind_ok hq]; exact hq'⟩

theorem ignoredWithin_list {items : List Text} {body : Text} (hbody : Body items body)
    (hvalues : ∀ t ∈ items, IsValue t) (hitems : ∀ t ∈ items, Passed t) {fuel : Nat}
    (hfuel : 2 * body.length < fuel) : Reads (ignoredWithin (fuel + 1)) ('[' :: (body ++ [']'])) () := by
  intro before rest p hbefore _
  obtain ⟨q, hq⟩ := token_spaces hbefore (c := '[') rfl (body ++ ']' :: rest) p
  rw [List.cons_append, List.append_assoc, List.singleton_append, ignoredWithin, bind_ok hq]
  simp only [Char.reduceEq, if_true, if_false]
  rw [if_neg (by decide), bind_ok (skip_cons ..)]
  cases hbody with
  | empty hspace =>
    obtain ⟨q', hq'⟩ := token_spaces hspace (c := ']') rfl rest (q.after '[')
    exact ⟨q'.after ']', by rw [bind_ok hq']; rfl⟩
  | row h =>
    obtain ⟨item, hitem, lead, tail, hlead, rfl, hrow⟩ := h.first
    obtain ⟨c, rest', rfl, hspace, hend, -⟩ := head_of_isValue (hvalues item hitem)
    obtain ⟨q', hq'⟩ := token_spaces hlead hspace (rest' ++ tail ++ ']' :: rest) (q.after '[')
    have hrest : 2 * (c :: rest' ++ tail).length < fuel := by
      rw [List.length_append] at hfuel
      omega
    obtain ⟨q'', hq''⟩ := ignoredElements_append hrow hitems hrest rest q'
    refine ⟨q'', ?_⟩
    simp only [List.append_assoc, List.cons_append] at hq' hq'' ⊢
    rw [bind_ok hq']
    simp only
    exact hq''

theorem ignoredWithin_object {pairs : List Pair} {body : Text} (hbody : Body (pairs.map Pair.text) body)
    (hkeys : ∀ x ∈ pairs, IsString x.key ∧ x.Spaced)
    (hvalues : ∀ x ∈ pairs, Passed x.value)
    {fuel : Nat} (hfuel : 2 * body.length < fuel) : Reads (ignoredWithin (fuel + 1)) ('{' :: (body ++ ['}'])) () := by
  intro before rest p hbefore _
  obtain ⟨q, hq⟩ := token_spaces hbefore (c := '{') rfl (body ++ '}' :: rest) p
  rw [List.cons_append, List.append_assoc, List.singleton_append, ignoredWithin, bind_ok hq]
  simp only [Char.reduceEq, if_true, if_false]
  rw [if_neg (by decide), bind_ok (skip_cons ..)]
  generalize htexts : pairs.map Pair.text = texts at hbody
  cases hbody with
  | empty hspace =>
    obtain ⟨q', hq'⟩ := token_spaces hspace (c := '}') rfl rest (q.after '{')
    exact ⟨q'.after '}', by rw [bind_ok hq']; rfl⟩
  | row h =>
    obtain ⟨item, hitem, lead, tail, hlead, rfl, hrow⟩ := h.first
    subst htexts
    obtain ⟨x, hx, rfl⟩ := List.mem_map.mp hitem
    obtain ⟨c, rest', hhead, hspace, hend⟩ := head_of_pair (hkeys x hx).1
    obtain ⟨q', hq'⟩ := token_spaces hlead hspace (rest' ++ tail ++ '}' :: rest) (q.after '{')
    rw [hhead] at hrow hfuel ⊢
    have hrest : 2 * (c :: rest' ++ tail).length < fuel := by
      rw [List.length_append] at hfuel
      omega
    obtain ⟨q'', hq''⟩ := ignoredMembers_append hrow hkeys hvalues hrest rest q'
    refine ⟨q'', ?_⟩
    simp only [List.append_assoc, List.cons_append] at hq' hq'' ⊢
    rw [bind_ok hq']
    simp only
    exact hq''

theorem passed {t : Text} (h : IsValue t) : Passed t := by
  -- The hypothesis for a list or an object is about the values in it, however deep they are nested.
  induction h with
  | null =>
    intro fuel hfuel
    obtain ⟨fuel, rfl⟩ := exists_fuel .null hfuel
    exact ignoredWithin_word (by decide) fuel
  | yes =>
    intro fuel hfuel
    obtain ⟨fuel, rfl⟩ := exists_fuel .yes hfuel
    exact ignoredWithin_word (by decide) fuel
  | no =>
    intro fuel hfuel
    obtain ⟨fuel, rfl⟩ := exists_fuel .no hfuel
    exact ignoredWithin_word (by decide) fuel
  | number h =>
    intro fuel hfuel
    obtain ⟨fuel, rfl⟩ := exists_fuel (.number h) hfuel
    exact ignoredWithin_number h fuel
  | string h =>
    intro fuel hfuel
    obtain ⟨fuel, rfl⟩ := exists_fuel (.string h) hfuel
    exact ignoredWithin_string h fuel
  | list hbody hitems ih =>
    intro fuel hfuel
    obtain ⟨fuel, rfl⟩ := exists_fuel (.list hbody hitems) hfuel
    simp only [List.length_cons, List.length_append, List.length_nil] at hfuel
    exact ignoredWithin_list hbody hitems ih (by omega)
  | object hbody hkeys hvalues ih =>
    intro fuel hfuel
    obtain ⟨fuel, rfl⟩ := exists_fuel (.object hbody hkeys hvalues) hfuel
    simp only [List.length_cons, List.length_append, List.length_nil] at hfuel
    exact ignoredWithin_object hbody hkeys ih (by omega)

theorem reads_ignored {t : Text} (h : IsValue t) : Reads ignored t () := by
  intro before rest p hbefore hrest
  have hfuel : 2 * t.length ≤ 2 * (before ++ (t ++ rest)).length + 2 := by
    simp only [List.length_append]
    omega
  obtain ⟨q, hq⟩ := passed h _ hfuel p hbefore hrest
  exact ⟨q, by rw [ignored, bind_ok (get_ok _)]; exact hq⟩

end Read
end Traceback.Json
