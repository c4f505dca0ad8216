import Traceback.Json.Record
import Traceback.Proofs.Json.Spelling

/-! # Reading what was written

A reader skips the white space in front of a value, takes the value and stops behind it. What it makes of the value does
not depend on where the value stands.

* `Reads`, `Refuses`: what a reader makes of a text, wherever that stands.
* `bind_ok`, `bind_error`: one step of a reader after another.
* `token_spaces`, `digits_append`: white space and digits are taken as far as they go.
* `reads_text`, `reads_word64`, `reads_bool`: readers of scalars.
-/

namespace Traceback.Json
set_option autoImplicit false

open Read

variable {α β : Type}

/-! ## Readers -/

/-- A value ends in front of this: it is nothing, or it begins with white space or with what goes on after a value. -/
def Stops (rest : Text) : Prop := ∀ c ∈ rest.head?, c ∈ [' ', '\n', '\t', '\r', ',', ':', ']', '}']

theorem Spaces.stops {after : Text} (h : Spaces after) : Stops after := fun c hc =>
  List.mem_append_left [',', ':', ']', '}'] (h c (List.mem_of_head? hc))

theorem stops_spaces {after : Text} (h : Spaces after) {c : Char} (hc : c ∈ [',', ':', ']', '}']) (rest : Text) :
    Stops (after ++ c :: rest) := by
  cases after with
  | nil =>
    rintro d ⟨⟩
    exact List.mem_append_right [' ', '\n', '\t', '\r'] hc
  | cons d after =>
    rintro e ⟨⟩
    exact h.stops d rfl

/-- The reader takes `t`, with white space in front of it, for `a`. -/
def Reads (r : Read α) (t : Text) (a : α) : Prop :=
  ∀ {before rest : Text} (p : Place), Spaces before → Stops rest →
    ∃ q, r ⟨before ++ (t ++ rest), p⟩ = .ok (a, ⟨rest, q⟩)

/-- The reader finds a fault in `t`. -/
def Refuses (r : Read α) (t : Text) : Prop :=
  ∀ {before rest : Text} (p : Place), Spaces before → Stops rest →
    ∃ f, r ⟨before ++ (t ++ rest), p⟩ = .error f

namespace Read

theorem bind_ok {r : Read α} {f : α → Read β} {c d : Cursor} {a : α} (h : r c = .ok (a, d)) : (r >>= f) c = f a d := by
  change (r c >>= fun p => f p.1 p.2) = f a d
  rw [h]
  rfl

theorem bind_error {r : Read α} {f : α → Read β} {c : Cursor} {e : Fault} (h : r c = .error e) :
    (r >>= f) c = .error e := by
  change (r c >>= fun p => f p.1 p.2) = .error e
  rw [h]
  rfl

theorem pure_ok (a : α) (c : Cursor) : (pure a : Read α) c = .ok (a, c) := rfl

theorem set_ok (c d : Cursor) : (set d : Read Unit) c = .ok ((), d) := rfl

theorem get_ok (c : Cursor) : (get : Read Cursor) c = .ok (c, c) := rfl

theorem peek_ok (t : Text) (p : Place) : peek ⟨t, p⟩ = .ok (t.head?, ⟨t, p⟩) := rfl

theorem peek_cons (c : Char) (rest : Text) (p : Place) : peek ⟨c :: rest, p⟩ = .ok (some c, ⟨c :: rest, p⟩) := rfl

theorem next_cons (c : Char) (rest : Text) (p : Place) : next ⟨c :: rest, p⟩ = .ok (some c, ⟨rest, p.after c⟩) := rfl

theorem skip_cons (c : Char) (rest : Text) (p : Place) : skip ⟨c :: rest, p⟩ = .ok ((), ⟨rest, p.after c⟩) := rfl

/-! ## White space -/

theorem isSpace_eq_true_iff {c : Char} : isSpace c = true ↔ c ∈ [' ', '\n', '\t', '\r'] := by
  simp [isSpace, or_assoc]

theorem skipSpaces_append {before : Text} (h : Spaces before) {c : Char} (hc : isSpace c = false) (rest : Text)
    (p : Place) : ∃ q, skipSpaces (before ++ c :: rest) p = ⟨c :: rest, q⟩ := by
  induction before generalizing p with
  | nil => exact ⟨p, by simp [skipSpaces, hc]⟩
  | cons d before ih =>
    obtain ⟨hd, hbefore⟩ := List.forall_mem_cons.mp h
    obtain ⟨q, hq⟩ := ih hbefore (p.after d)
    exact ⟨q, by rw [List.cons_append, skipSpaces, if_pos (isSpace_eq_true_iff.mpr hd), hq]⟩

/-- White space is skipped, and what follows it is looked at. -/
theorem token_spaces {before : Text} (h : Spaces before) {c : Char} (hc : isSpace c = false) (rest : Text) (p : Place) :
    ∃ q, token ⟨before ++ c :: rest, p⟩ = .ok (some c, ⟨c :: rest, q⟩) := by
  obtain ⟨q, hq⟩ := skipSpaces_append h hc rest p
  have hspaces : spaces ⟨before ++ c :: rest, p⟩ = .ok ((), ⟨c :: rest, q⟩) := congrArg (fun d => Except.ok ((), d)) hq
  exact ⟨q, by rw [token, bind_ok hspaces, peek_cons]⟩

theorem token_end {before : Text} (h : Spaces before) (p : Place) : ∃ q, token ⟨before, p⟩ = .ok (none, ⟨[], q⟩) := by
  have hskip : ∃ q, skipSpaces before p = ⟨[], q⟩ := by
    induction before generalizing p with
    | nil => exact ⟨p, rfl⟩
    | cons d before ih =>
      obtain ⟨hd, hbefore⟩ := List.forall_mem_cons.mp h
      obtain ⟨q, hq⟩ := ih hbefore (p.after d)
      exact ⟨q, by rw [skipSpaces, if_pos (isSpace_eq_true_iff.mpr hd), hq]⟩
  obtain ⟨q, hq⟩ := hskip
  have hspaces : spaces ⟨before, p⟩ = .ok ((), ⟨[], q⟩) := congrArg (fun d => Except.ok ((), d)) hq
  exact ⟨q, by rw [token, bind_ok hspaces]; rfl⟩

theorem valueToken_spaces {before : Text} (h : Spaces before) {c : Char} (hc : isSpace c = false) (rest : Text)
    (p : Place) : ∃ q, valueToken ⟨before ++ c :: rest, p⟩ = .ok (c, ⟨c :: rest, q⟩) := by
  obtain ⟨q, hq⟩ := token_spaces h hc rest p
  exact ⟨q, by rw [valueToken, bind_ok hq]; rfl⟩

/-! ## Words -/

theorem word_append (letters rest : Text) (p : Place) :
    ∃ q, word letters ⟨letters ++ rest, p⟩ = .ok ((), ⟨rest, q⟩) := by
  induction letters generalizing p with
  | nil => exact ⟨p, rfl⟩
  | cons c letters ih =>
    obtain ⟨q, hq⟩ := ih (p.after c)
    exact ⟨q, by rw [List.cons_append, word, bind_ok (next_cons ..)]; simpa using hq⟩

/-! ## Strings -/

theorem hexDigit?_eq {n : Nat} {d : Char} (h : IsHexDigit n d) : hexDigit? d = some n := by
  have hlower : ∀ n : Fin 16, hexDigit? "0123456789abcdef".toList[n] = some n.val := by decide
  have hupper : ∀ n : Fin 16, hexDigit? "0123456789ABCDEF".toList[n] = some n.val := by decide
  rcases h with h | h
  · obtain ⟨hn, rfl⟩ := List.getElem?_eq_some_iff.mp h
    exact hlower ⟨n, hn⟩
  · obtain ⟨hn, rfl⟩ := List.getElem?_eq_some_iff.mp h
    exact hupper ⟨n, hn⟩

theorem size_of_isHexDigit {n : Nat} {d : Char} (h : IsHexDigit n d) : (Utf8.encodeChar d).length = 1 := by
  have hlower : ∀ n : Fin 16, (Utf8.encodeChar "0123456789abcdef".toList[n]).length = 1 := by decide
  have hupper : ∀ n : Fin 16, (Utf8.encodeChar "0123456789ABCDEF".toList[n]).length = 1 := by decide
  rcases h with h | h
  · obtain ⟨hn, rfl⟩ := List.getElem?_eq_some_iff.mp h
    exact hlower ⟨n, hn⟩
  · obtain ⟨hn, rfl⟩ := List.getElem?_eq_some_iff.mp h
    exact hupper ⟨n, hn⟩

theorem afterBytes_cons {d : Char} (hd : (Utf8.encodeChar d).length = 1) (n : Nat) (rest : Text) (p : Place) :
    afterBytes (n + 1) (d :: rest) p = afterBytes n rest (p.after d) := by
  simp [afterBytes, hd]

theorem afterBytes_zero (rest : Text) (p : Place) : afterBytes 0 rest p = (true, ⟨rest, p⟩) := by cases rest <;> rfl

theorem hexCode_append {n : Nat} {ds : Text} (h : IsHexCode n ds) (rest : Text) (p : Place) :
    ∃ q, hexCode ⟨ds ++ rest, p⟩ = .ok (n, ⟨rest, q⟩) := by
  obtain ⟨a, b, c, d, ha, hb, hc, hd⟩ := h
  have hbytes : afterBytes 4 (a :: b :: c :: d :: rest) p =
      (true, ⟨rest, (((p.after a).after b).after c).after d⟩) := by
    rw [afterBytes_cons (size_of_isHexDigit ha), afterBytes_cons (size_of_isHexDigit hb),
      afterBytes_cons (size_of_isHexDigit hc), afterBytes_cons (size_of_isHexDigit hd), afterBytes_zero]
  have hdigits : [a, b, c, d].mapM hexDigit? = some [n / 4096, n / 256 % 16, n / 16 % 16, n % 16] := by
    simp [hexDigit?_eq ha, hexDigit?_eq hb, hexDigit?_eq hc, hexDigit?_eq hd]
  have hvalue : 16 * (16 * (16 * (16 * 0 + n / 4096) + n / 256 % 16) + n / 16 % 16) + n % 16 = n := by omega
  refine ⟨(((p.after a).after b).after c).after d, ?_⟩
  rw [hexCode, bind_ok (get_ok _)]
  simp only [List.cons_append, List.nil_append, hbytes, List.take_succ_cons, List.take_zero, hdigits]
  rw [bind_ok (set_ok _ _)]
  simp only [List.foldl_cons, List.foldl_nil, hvalue]
  rfl

/-- The letter of a code is not among the others. -/
theorem escapeLetter?_eq {l c : Char} (h : (l, c) ∈ escapes) : l ≠ 'u' ∧ escapeLetter? l = some c := by
  have hall : ∀ e ∈ escapes, e.1 ≠ 'u' ∧ escapeLetter? e.1 = some e.2 := by decide
  exact hall (l, c) h

theorem pairMark_cons (c : Char) (rest : Text) (p : Place) :
    pairMark c ⟨c :: rest, p⟩ = .ok ((), ⟨rest, p.after c⟩) := by
  rw [pairMark, bind_ok (peek_cons ..)]
  simp only [if_true]
  exact skip_cons ..

theorem coded_code {c : Char} {ds : Text} (h : IsHexCode c.toNat ds) (rest : Text) (p : Place) :
    ∃ q, coded ⟨ds ++ rest, p⟩ = .ok (c, ⟨rest, q⟩) := by
  obtain ⟨q, hq⟩ := hexCode_append h rest p
  have hvalid : c.toNat < 0xD800 ∨ 0xDFFF < c.toNat ∧ c.toNat < 0x110000 := c.valid
  refine ⟨q, ?_⟩
  rw [coded, bind_ok hq, if_neg (by omega), if_neg (by omega), pure_ok, Char.ofNat_toNat]

theorem coded_pair {c : Char} {high low : Text} (hwide : 0x10000 ≤ c.toNat)
    (hhigh : IsHexCode (0xD800 + (c.toNat - 0x10000) / 1024) high)
    (hlow : IsHexCode (0xDC00 + (c.toNat - 0x10000) % 1024) low) (rest : Text) (p : Place) :
    ∃ q, coded ⟨high ++ ('\\' :: 'u' :: (low ++ rest)), p⟩ = .ok (c, ⟨rest, q⟩) := by
  have hvalid : c.toNat < 0xD800 ∨ 0xDFFF < c.toNat ∧ c.toNat < 0x110000 := c.valid
  obtain ⟨q, hq⟩ := hexCode_append hhigh ('\\' :: 'u' :: (low ++ rest)) p
  obtain ⟨q', hq'⟩ := hexCode_append hlow rest ((q.after '\\').after 'u')
  have hvalue : (0xD800 + (c.toNat - 0x10000) / 1024 - 0xD800) * 1024 +
      (0xDC00 + (c.toNat - 0x10000) % 1024 - 0xDC00) + 0x10000 = c.toNat := by omega
  refine ⟨q', ?_⟩
  rw [coded, bind_ok hq, if_neg (by omega), if_pos (by omega), bind_ok (pairMark_cons ..), bind_ok (pairMark_cons ..),
    bind_ok hq', if_neg (by omega), pure_ok, hvalue, Char.ofNat_toNat]

theorem escape_letter {l c : Char} (h : (l, c) ∈ escapes) (rest : Text) (p : Place) :
    escape ⟨l :: rest, p⟩ = .ok (c, ⟨rest, p.after l⟩) := by
  obtain ⟨hu, hletter⟩ := escapeLetter?_eq h
  rw [escape, bind_ok (next_cons ..)]
  simp only [hletter]
  rfl

theorem isControl_eq_false {c : Char} (h : IsPlain c) : isControl c = false := by
  rw [isControl, decide_eq_false_iff_not, Nat.not_lt]
  exact h.1

theorem stringWithin_cons {c : Char} {s : Text} (h : WritesChar c s) (fuel : Nat) (rest : Text) (p : Place) :
    ∃ q, stringWithin (fuel + 1) ⟨s ++ rest, p⟩ = (do return c :: (← stringWithin fuel)) ⟨rest, q⟩ := by
  have hescape : ∀ {tail : Text} {q : Place}, escape ⟨tail, p.after '\\'⟩ = .ok (c, ⟨rest, q⟩) →
      stringWithin (fuel + 1) ⟨'\\' :: tail, p⟩ = (do return c :: (← stringWithin fuel)) ⟨rest, q⟩ := by
    intro tail q hq
    rw [stringWithin, bind_ok (next_cons ..)]
    exact bind_ok hq
  cases h with
  | plain hplain =>
    obtain ⟨-, hquote, hslash⟩ := id hplain
    refine ⟨p.after c, ?_⟩
    rw [List.singleton_append, stringWithin, bind_ok (next_cons ..)]
    simp [isControl_eq_false hplain]
  | letter l hl => exact ⟨_, hescape (escape_letter hl rest _)⟩
  | code ds hds =>
    obtain ⟨q, hq⟩ := coded_code hds rest ((p.after '\\').after 'u')
    exact ⟨q, hescape hq⟩
  | pair high low hwide hhigh hlow =>
    obtain ⟨q, hq⟩ := coded_pair hwide hhigh hlow rest ((p.after '\\').after 'u')
    refine ⟨q, ?_⟩
    have htext : '\\' :: 'u' :: (high ++ '\\' :: 'u' :: low) ++ rest =
        '\\' :: 'u' :: (high ++ '\\' :: 'u' :: (low ++ rest)) := by simp
    rw [htext]
    exact hescape hq

theorem writesChar_length_pos {c : Char} {s : Text} (h : WritesChar c s) : 0 < s.length := by
  cases h <;> simp

theorem stringWithin_append {t inner : Text} (h : WritesChars t inner) {fuel : Nat} (hfuel : inner.length < fuel)
    (rest : Text) (p : Place) : ∃ q, stringWithin fuel ⟨inner ++ '"' :: rest, p⟩ = .ok (t, ⟨rest, q⟩) := by
  induction h generalizing fuel p with
  | nil =>
    obtain ⟨fuel, rfl⟩ : ∃ n, fuel = n + 1 := ⟨fuel - 1, by omega⟩
    exact ⟨_, rfl⟩
  | @cons c t s inner hc ht ih =>
    have hpos := writesChar_length_pos hc
    rw [List.length_append] at hfuel
    obtain ⟨fuel, rfl⟩ : ∃ n, fuel = n + 1 := ⟨fuel - 1, by omega⟩
    rw [List.append_assoc]
    obtain ⟨q, hq⟩ := stringWithin_cons hc fuel (inner ++ '"' :: rest) p
    have hrest : inner.length < fuel := by omega
    obtain ⟨q', hq'⟩ := ih hrest q
    exact ⟨q', by rw [hq, bind_ok hq', pure_ok]⟩

/-- A string whose opening quote has been taken. -/
theorem string_append {t inner : Text} (h : WritesChars t inner) (rest : Text) (p : Place) :
    ∃ q, string ⟨inner ++ '"' :: rest, p⟩ = .ok (t, ⟨rest, q⟩) := by
  have hfuel : inner.length < (inner ++ '"' :: rest).length + 1 := by
    rw [List.length_append]
    omega
  obtain ⟨q, hq⟩ := stringWithin_append h hfuel rest p
  exact ⟨q, by rw [string, bind_ok (get_ok _)]; exact hq⟩

/-! ## Digits -/

theorem isDigit_eq (c : Char) : isDigit c = c.isDigit := by
  simp [isDigit, Char.isDigit, Char.le_def]

/-- What follows does not go on with digits, a point or an exponent. -/
theorem not_digit_of_stops {rest : Text} (h : Stops rest) :
    ∀ c ∈ rest.head?, isDigit c = false ∧ c ≠ '.' ∧ c ≠ 'e' ∧ c ≠ 'E' := by
  have hall : ∀ c ∈ [' ', '\n', '\t', '\r', ',', ':', ']', '}'],
      isDigit c = false ∧ c ≠ '.' ∧ c ≠ 'e' ∧ c ≠ 'E' := by simp [isDigit]
  exact fun c hc => hall c (h c hc)

theorem digits_append {ds rest : Text} (hds : ∀ c ∈ ds, c.isDigit = true) (hrest : ∀ c ∈ rest.head?, isDigit c = false)
    (p : Place) : ∃ q, digits ⟨ds ++ rest, p⟩ = .ok (ds.map fun d => d.toNat - 48, ⟨rest, q⟩) := by
  have hnone : rest.takeWhile isDigit = [] := by
    cases rest with
    | nil => rfl
    | cons c rest => rw [List.takeWhile_cons, hrest c rfl]; rfl
  have htake : (ds ++ rest).takeWhile isDigit = ds := by
    rw [List.takeWhile_append_of_pos fun c hc => by rw [isDigit_eq, hds c hc], hnone, List.append_nil]
  refine ⟨⟨p.line, p.column + ds.length⟩, ?_⟩
  rw [digits, bind_ok (get_ok _)]
  simp only [htake, List.drop_left]
  rw [bind_ok (set_ok _ _), pure_ok]

/-! ## Numbers -/

/-- No digits are left out while the number that they make fits. -/
theorem appendDigits_eq {n : Nat} {ds : List Nat} (h : ds.foldl (fun n d => 10 * n + d) n < limit64) :
    appendDigits n ds = (ds.foldl (fun n d => 10 * n + d) n, 0) := by
  have hgrows : ∀ (ds : List Nat) (n : Nat), n ≤ ds.foldl (fun n d => 10 * n + d) n := by
    intro ds
    induction ds with
    | nil => exact fun n => Nat.le_refl n
    | cons d ds ih => exact fun n => Nat.le_trans (by omega) (ih (10 * n + d))
  induction ds generalizing n with
  | nil => rfl
  | cons d ds ih =>
    rw [List.foldl_cons] at h ⊢
    rw [appendDigits, if_pos (Nat.lt_of_le_of_lt (hgrows ds _) h), ih h]

theorem ofNat_head {n : Nat} (hn : n ≠ 0) : (Text.ofNat n).head? ≠ some '0' := by
  induction n using Nat.strongRecOn with
  | ind n ih =>
    rw [Text.ofNat, Nat.toDigits_eq_if (by omega)]
    split
    next hsmall =>
      have hall : ∀ n < 10, n ≠ 0 → [n.digitChar].head? ≠ some '0' := by decide
      exact hall n hsmall hn
    next hlarge =>
      have hhead : (Nat.toDigits 10 (n / 10) ++ [(n % 10).digitChar]).head? = (Nat.toDigits 10 (n / 10)).head? := by
        rw [List.head?_append, Option.or_of_isSome (by simp [Nat.toDigits_ne_nil])]
      rw [hhead]
      exact ih (n / 10) (by omega) (by omega)

/-- A number as it is written has digits only, the first of which is no zero unless it is the only one. -/
theorem isWhole_ofNat (n : Nat) : IsWhole (Text.ofNat n) := by
  refine ⟨⟨Nat.toDigits_ne_nil, fun c hc => Nat.isDigit_of_mem_toDigits (by omega) (by omega) hc⟩, fun hzero => ?_⟩
  by_cases hn : n = 0
  · rw [hn]
    rfl
  · exact absurd hzero (ofNat_head hn)

theorem foldl_ofNat (n : Nat) : ((Text.ofNat n).map fun d => d.toNat - 48).foldl (fun n d => 10 * n + d) 0 = n := by
  rw [List.foldl_map]
  exact Nat.ofDigitChars_ten_toDigits

/-- No digit follows a leading zero. -/
theorem single_zero {c : Char} {ds rest : Text} (h : IsWhole (c :: ds)) (hrest : ∀ d ∈ rest.head?, isDigit d = false) :
    ¬ (c = '0' ∧ (ds ++ rest).head?.any isDigit = true) := by
  rintro ⟨rfl, hany⟩
  obtain ⟨rfl⟩ : ds = [] := by simpa using h.2 rfl
  cases hhead : rest.head? with
  | none => simp [hhead] at hany
  | some d => simp [hhead, hrest d hhead] at hany

theorem number_append {n : Nat} (hn : n < limit64) {rest : Text} (hrest : Stops rest) (p : Place) :
    ∃ q, number true ⟨Text.ofNat n ++ rest, p⟩ = .ok (.natural n, ⟨rest, q⟩) := by
  obtain ⟨⟨hne, hdigits⟩, hzero⟩ := isWhole_ofNat n
  have hvalue := foldl_ofNat n
  generalize Text.ofNat n = ds at hne hdigits hzero hvalue
  cases ds with
  | nil => exact absurd rfl hne
  | cons c ds =>
    obtain ⟨hc, hds⟩ := List.forall_mem_cons.mp hdigits
    have hstop := not_digit_of_stops hrest
    obtain ⟨q, hq⟩ := digits_append hds (fun d hd => (hstop d hd).1) (p.after c)
    rw [List.map_cons, List.foldl_cons, Nat.mul_zero, Nat.zero_add] at hvalue
    have happend : appendDigits (c.toNat - 48) (ds.map fun d => d.toNat - 48) = (n, 0) := by
      rw [appendDigits_eq (by rw [hvalue]; exact hn), hvalue]
    -- The first digit is taken alone, so that the others are appended to it.
    have hsingle := single_zero ⟨⟨hne, hdigits⟩, hzero⟩ fun d hd => (hstop d hd).1
    have hpoint : rest.head? ≠ some '.' := fun h => (hstop _ h).2.1 rfl
    have hmark : isExponentMark rest.head? = false := by
      cases hhead : rest.head? with
      | none => rfl
      | some d => simp [isExponentMark, (hstop d hhead).2.2]
    refine ⟨q, ?_⟩
    rw [List.cons_append, number, bind_ok (next_cons ..)]
    simp only [isDigit_eq, hc, Bool.not_true, Bool.false_eq_true, if_false]
    rw [bind_ok (peek_ok ..), if_neg hsingle, bind_ok hq]
    simp only [happend]
    rw [bind_ok (peek_ok ..), if_neg hpoint, if_neg (by simp [hmark])]
    simp [whole, pure_ok]

/-! ## Scalars -/

theorem reads_text {t s : Text} (h : WritesText t s) : Reads text s t := by
  obtain ⟨h⟩ := h
  intro before rest p hbefore _
  rw [List.cons_append, List.append_assoc]
  obtain ⟨q, hq⟩ := valueToken_spaces hbefore (c := '"') rfl (_ ++ (['"'] ++ rest)) p
  obtain ⟨q', hq'⟩ := string_append h rest (q.after '"')
  exact ⟨q', by rw [text, bind_ok hq, if_pos rfl, bind_ok (skip_cons ..)]; exact hq'⟩

theorem isSpace_of_isDigit {c : Char} (h : c.isDigit = true) : isSpace c = false := by
  have hall : ∀ d ∈ [' ', '\n', '\t', '\r'], d.isDigit = false := by simp
  cases hspace : isSpace c with
  | false => rfl
  | true =>
    rw [hall c (isSpace_eq_true_iff.mp hspace)] at h
    cases h

theorem reads_word64 (n : UInt64) : Reads word64 (Text.ofNat n.toNat) n := by
  intro before rest p hbefore hrest
  obtain ⟨⟨hne, hdigits⟩, -⟩ := isWhole_ofNat n.toNat
  obtain ⟨c, ds, hds⟩ := List.exists_cons_of_ne_nil hne
  have hc : c.isDigit = true := hdigits c (by rw [hds]; exact List.mem_cons_self ..)
  obtain ⟨q, hq⟩ := valueToken_spaces hbefore (isSpace_of_isDigit hc) (ds ++ rest) p
  obtain ⟨q', hq'⟩ := number_append n.toNat_lt hrest q
  refine ⟨q', ?_⟩
  rw [hds, List.cons_append] at hq' ⊢
  have hminus : c ≠ '-' := by
    rintro rfl
    cases hc
  rw [word64, bind_ok hq, if_neg hminus, if_pos (by rw [isDigit_eq, hc]), bind_ok hq', asWord, pure_ok,
    UInt64.ofNat_toNat]

theorem reads_bool (b : Bool) : Reads bool (if b then "true".toList else "false".toList) b := by
  intro before rest p hbefore _
  cases b with
  | true =>
    obtain ⟨q, hq⟩ := valueToken_spaces hbefore (c := 't') rfl ('r' :: 'u' :: 'e' :: rest) p
    obtain ⟨q', hq'⟩ := word_append ['r', 'u', 'e'] rest (q.after 't')
    refine ⟨q', ?_⟩
    change bool ⟨before ++ 't' :: 'r' :: 'u' :: 'e' :: rest, p⟩ = _
    rw [bool, bind_ok hq, if_pos rfl, bind_ok (skip_cons ..)]
    exact bind_ok hq'
  | false =>
    obtain ⟨q, hq⟩ := valueToken_spaces hbefore (c := 'f') rfl ('a' :: 'l' :: 's' :: 'e' :: rest) p
    obtain ⟨q', hq'⟩ := word_append ['a', 'l', 's', 'e'] rest (q.after 'f')
    refine ⟨q', ?_⟩
    change bool ⟨before ++ 'f' :: 'a' :: 'l' :: 's' :: 'e' :: rest, p⟩ = _
    rw [bool, bind_ok hq, if_neg (by decide), if_pos rfl, bind_ok (skip_cons ..)]
    exact bind_ok hq'

/-! ## Nothing in place of a value -/

/-- A value that is no word begins here. -/
def Opened (t : Text) : Prop := ∃ c rest, t = c :: rest ∧ (c ∈ ['"', '[', '{'] ∨ c.isDigit = true)

/-- Neither white space, nor the end of a list, nor `null`. -/
theorem Opened.head {t : Text} (h : Opened t) : ∃ c rest, t = c :: rest ∧ isSpace c = false ∧ c ≠ ']' ∧ c ≠ 'n' := by
  obtain ⟨c, rest, rfl, hc⟩ := h
  refine ⟨c, rest, rfl, ?_⟩
  rcases hc with hc | hc
  · have hall : ∀ c ∈ ['"', '[', '{'], isSpace c = false ∧ c ≠ ']' ∧ c ≠ 'n' := by simp [isSpace]
    exact hall c hc
  · refine ⟨isSpace_of_isDigit hc, ?_, ?_⟩
    · rintro rfl
      cases hc
    · rintro rfl
      cases hc

section Options
variable {r : Read α} {t : Text} {a : α}

theorem reads_none : Reads (option r) "null".toList none := by
  intro before rest p hbefore _
  obtain ⟨q, hq⟩ := token_spaces hbefore (c := 'n') rfl ('u' :: 'l' :: 'l' :: rest) p
  obtain ⟨q', hq'⟩ := word_append ['u', 'l', 'l'] rest (q.after 'n')
  refine ⟨q', ?_⟩
  change option r ⟨before ++ 'n' :: 'u' :: 'l' :: 'l' :: rest, p⟩ = _
  rw [option, bind_ok hq, if_pos rfl, bind_ok (skip_cons ..)]
  exact bind_ok hq'

/-- Where a value begins, it is read. -/
theorem option_opened (ht : Opened t) {before : Text} (hbefore : Spaces before) (rest : Text) (p : Place) :
    ∃ q, option r ⟨before ++ (t ++ rest), p⟩ = (do return some (← r)) ⟨t ++ rest, q⟩ := by
  obtain ⟨c, tail, rfl, hspace, -, hnull⟩ := ht.head
  obtain ⟨q, hq⟩ := token_spaces hbefore hspace (tail ++ rest) p
  refine ⟨q, ?_⟩
  rw [List.cons_append, option, bind_ok hq, if_neg (by simpa using hnull)]

theorem reads_some (ht : Opened t) (h : Reads r t a) : Reads (option r) t (some a) := by
  intro before rest p hbefore hrest
  obtain ⟨q, hq⟩ := option_opened (r := r) ht hbefore rest p
  obtain ⟨q', hq'⟩ := h q spaces_nil hrest
  exact ⟨q', by rw [hq]; exact bind_ok hq'⟩

theorem refuses_some (ht : Opened t) (h : Refuses r t) : Refuses (option r) t := by
  intro before rest p hbefore hrest
  obtain ⟨q, hq⟩ := option_opened (r := r) ht hbefore rest p
  obtain ⟨f, hf⟩ := h q spaces_nil hrest
  exact ⟨f, by rw [hq]; exact bind_error hf⟩

end Options

end Read
end Traceback.Json
