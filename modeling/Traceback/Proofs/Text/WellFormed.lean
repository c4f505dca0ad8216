import Traceback.Proofs.Text.Units

/-! # Bytes without a malformed part

A text has one form in bytes: bytes that are decoded without a malformed part are what encoding the text gives.

* `encodeChar_two`, `encodeChar_three`, `encodeChar_four`: the bytes of a character, by the bits that each carries.
* `exists_encodeChar`: a character stands at the front.
* `decode?_eq_some_iff`: the bytes of a text.
-/

namespace Traceback.Utf8
set_option autoImplicit false

/-! ## The bytes of a character, by its bits -/

theorem toNat_charOfNat {n : Nat} (h : n < 0xD800 ∨ 0xDFFF < n ∧ n < 0x110000) : (Char.ofNat n).toNat = n := by
  have hvalid : n.isValidChar := h
  unfold Char.ofNat
  rw [dif_pos hvalid]
  rfl

theorem encodeChar_one {n : Nat} (hn : n < 0x80) : encodeChar (Char.ofNat n) = [UInt8.ofNat n] := by
  rw [encodeChar, toNat_charOfNat (by omega)]
  exact if_pos hn

theorem encodeChar_two {i k : Nat} (hi : 2 ≤ i) (hi' : i < 32) (hk : k < 64) :
    encodeChar (Char.ofNat (i * 64 + k)) = [UInt8.ofNat (0xC0 + i), UInt8.ofNat (0x80 + k)] := by
  have hfirst : (i * 64 + k) / 64 = i := by omega
  have hlast : (i * 64 + k) % 64 = k := by omega
  rw [encodeChar, toNat_charOfNat (by omega), if_neg (by omega), if_pos (by omega), hfirst, hlast]

/-- Of three bytes, the second is limited after the first and last ones that begin such characters, so that no
character has fewer bytes and none is a surrogate. -/
theorem encodeChar_three {i k l : Nat} (hi : i < 16) (hk : k < 64) (hl : l < 64)
    (hlow : (if i = 0 then 0xA0 else 0x80) ≤ 0x80 + k) (hhigh : 0x80 + k ≤ if i = 13 then 0x9F else 0xBF) :
    encodeChar (Char.ofNat ((i * 64 + k) * 64 + l)) =
      [UInt8.ofNat (0xE0 + i), UInt8.ofNat (0x80 + k), UInt8.ofNat (0x80 + l)] := by
  have hvalid : 0x800 ≤ (i * 64 + k) * 64 + l ∧
      ((i * 64 + k) * 64 + l < 0xD800 ∨ 0xDFFF < (i * 64 + k) * 64 + l) := by
    split at hlow <;> split at hhigh <;> omega
  have hfirst : ((i * 64 + k) * 64 + l) / 4096 = i := by omega
  have hmiddle : ((i * 64 + k) * 64 + l) / 64 % 64 = k := by omega
  have hlast : ((i * 64 + k) * 64 + l) % 64 = l := by omega
  rw [encodeChar, toNat_charOfNat (by omega), if_neg (by omega), if_neg (by omega), if_pos (by omega), hfirst, hmiddle,
    hlast]

/-- Of four bytes, the second is limited so that no character has fewer bytes and none is beyond the last. -/
theorem encodeChar_four {i k l m : Nat} (hi : i < 5) (hk : k < 64) (hl : l < 64) (hm : m < 64)
    (hlow : (if i = 0 then 0x90 else 0x80) ≤ 0x80 + k) (hhigh : 0x80 + k ≤ if i = 4 then 0x8F else 0xBF) :
    encodeChar (Char.ofNat (((i * 64 + k) * 64 + l) * 64 + m)) =
      [UInt8.ofNat (0xF0 + i), UInt8.ofNat (0x80 + k), UInt8.ofNat (0x80 + l), UInt8.ofNat (0x80 + m)] := by
  have hvalid : 0x10000 ≤ ((i * 64 + k) * 64 + l) * 64 + m ∧ ((i * 64 + k) * 64 + l) * 64 + m < 0x110000 := by
    split at hlow <;> split at hhigh <;> omega
  have hfirst : (((i * 64 + k) * 64 + l) * 64 + m) / 262144 = i := by omega
  have hsecond : (((i * 64 + k) * 64 + l) * 64 + m) / 4096 % 64 = k := by omega
  have hthird : (((i * 64 + k) * 64 + l) * 64 + m) / 64 % 64 = l := by omega
  have hlast : (((i * 64 + k) * 64 + l) * 64 + m) % 64 = m := by omega
  rw [encodeChar, toNat_charOfNat (by omega), if_neg (by omega), if_neg (by omega), if_neg (by omega), hfirst, hsecond,
    hthird, hlast]

/-! ## The character at the front -/

theorem eq_ofNat {b : UInt8} {n : Nat} (h : b.toNat = n) : b = UInt8.ofNat n := by rw [← h, UInt8.ofNat_toNat]

/-- Nothing else than a continuing byte may follow inside a character. -/
theorem exists_continuing {bits low high further : Nat} {bytes : Bytes} (hlow : 0x80 ≤ low) (hhigh : high ≤ 0xBF)
    (h : (unitsFrom (.inside bits low high further) bytes).all Option.isSome = true) :
    ∃ k rest, bytes = UInt8.ofNat (0x80 + k) :: rest ∧ k < 64 ∧ low ≤ 0x80 + k ∧ 0x80 + k ≤ high := by
  cases bytes with
  | nil => cases h
  | cons b rest =>
    cases hb : State.continues (.inside bits low high further) b.toNat with
    | false =>
      rw [unitsFrom_of_not_continues hb] at h
      cases h
    | true =>
      have hrange : low ≤ b.toNat ∧ b.toNat ≤ high := by simpa [State.continues] using hb
      have e : b.toNat = 0x80 + (b.toNat - 0x80) := by omega
      exact ⟨b.toNat - 0x80, rest, by rw [← eq_ofNat e], by omega, by omega, by omega⟩

/-- The first byte tells how many there are. -/
theorem exists_encodeChar {b : UInt8} {rest : Bytes}
    (h : (unitsFrom .between (b :: rest)).all Option.isSome = true) : ∃ c rest', b :: rest = encodeChar c ++ rest' := by
  have hb : b.toNat < 256 := b.toNat_lt
  rw [unitsFrom_cons, step] at h
  by_cases h1 : b.toNat < 0x80
  · refine ⟨Char.ofNat b.toNat, rest, ?_⟩
    rw [encodeChar_one h1, ← eq_ofNat rfl, List.singleton_append]
  by_cases h2 : b.toNat < 0xC2
  · rw [lead, if_neg h1, if_pos h2] at h
    cases h
  by_cases h3 : b.toNat < 0xE0
  · obtain ⟨i, hi⟩ : ∃ i, b.toNat = 0xC0 + i := ⟨b.toNat - 0xC0, by omega⟩
    rw [hi, lead_two i (by omega) (by omega), List.nil_append] at h
    obtain ⟨k, rest', rfl, hk, -, -⟩ := exists_continuing (by omega) (by omega) h
    refine ⟨Char.ofNat (i * 64 + k), rest', ?_⟩
    rw [encodeChar_two (by omega) (by omega) hk, eq_ofNat hi]
    rfl
  by_cases h4 : b.toNat < 0xF0
  · obtain ⟨i, hi⟩ : ∃ i, b.toNat = 0xE0 + i := ⟨b.toNat - 0xE0, by omega⟩
    have hlow : 0x80 ≤ if i = 0 then 0xA0 else 0x80 := by split <;> omega
    have hhigh : (if i = 13 then 0x9F else 0xBF) ≤ 0xBF := by split <;> omega
    rw [hi, lead_three i (by omega), List.nil_append] at h
    obtain ⟨k, rest', rfl, hk, hk1, hk2⟩ := exists_continuing hlow hhigh h
    rw [unitsFrom_inside _ _ _ _ _ hk hk1 hk2] at h
    obtain ⟨l, rest', rfl, hl, -, -⟩ := exists_continuing (by omega) (by omega) h
    refine ⟨Char.ofNat ((i * 64 + k) * 64 + l), rest', ?_⟩
    rw [encodeChar_three (by omega) hk hl hk1 hk2, eq_ofNat hi]
    rfl
  by_cases h5 : b.toNat < 0xF5
  · obtain ⟨i, hi⟩ : ∃ i, b.toNat = 0xF0 + i := ⟨b.toNat - 0xF0, by omega⟩
    have hlow : 0x80 ≤ if i = 0 then 0x90 else 0x80 := by split <;> omega
    have hhigh : (if i = 4 then 0x8F else 0xBF) ≤ 0xBF := by split <;> omega
    rw [hi, lead_four i (by omega), List.nil_append] at h
    obtain ⟨k, rest', rfl, hk, hk1, hk2⟩ := exists_continuing hlow hhigh h
    rw [unitsFrom_inside _ _ _ _ _ hk hk1 hk2] at h
    obtain ⟨l, rest', rfl, hl, hl1, hl2⟩ := exists_continuing (by omega) (by omega) h
    rw [unitsFrom_inside _ _ _ _ _ hl hl1 hl2] at h
    obtain ⟨m, rest', rfl, hm, -, -⟩ := exists_continuing (by omega) (by omega) h
    refine ⟨Char.ofNat (((i * 64 + k) * 64 + l) * 64 + m), rest', ?_⟩
    rw [encodeChar_four (by omega) hk hl hm hk1 hk2, eq_ofNat hi]
    rfl
  · rw [lead, if_neg h1, if_neg h2, if_neg h3, if_neg (by omega), if_neg (by omega), if_neg h4, if_neg (by omega),
      if_neg (by omega), if_neg (by omega)] at h
    cases h

/-! ## Texts -/

theorem length_encodeChar_pos (c : Char) : 0 < (encodeChar c).length := by
  unfold encodeChar
  dsimp only
  split
  · exact Nat.one_pos
  · split
    · exact Nat.two_pos
    · split
      · exact Nat.succ_pos 2
      · exact Nat.succ_pos 3

theorem encode_lossy (bytes : Bytes) (h : (units bytes).all Option.isSome = true) : encode (lossy bytes) = bytes := by
  induction hn : bytes.length using Nat.strongRecOn generalizing bytes with
  | ind n ih =>
    cases bytes with
    | nil => rfl
    | cons b rest =>
      obtain ⟨c, rest', e⟩ := exists_encodeChar h
      have hunits : units (encodeChar c ++ rest') = some c :: units rest' := unitsFrom_encodeChar c rest'
      have hlength := length_encodeChar_pos c
      rw [e] at h hn ⊢
      rw [hunits] at h
      rw [List.length_append] at hn
      have hrest : encode (lossy rest') = rest' := ih rest'.length (by omega) rest' h rfl
      have hlossy : lossy (encodeChar c ++ rest') = c :: lossy rest' := by
        rw [lossy, hunits]
        rfl
      rw [hlossy, encode, List.flatMap_cons]
      exact congrArg (encodeChar c ++ ·) hrest

/-- **A text has one form in bytes.** -/
theorem decode?_eq_some_iff {bytes : Bytes} {t : Text} : decode? bytes = some t ↔ bytes = encode t := by
  constructor
  · intro h
    unfold decode? at h
    split at h
    next hall =>
      cases h
      exact (encode_lossy bytes hall).symm
    next => cases h
  · rintro rfl
    exact decode?_encode t

end Traceback.Utf8
