import Mathlib.Order.Bounds.Basic
import Traceback.Proofs.Text.Offset
import Traceback.Proofs.Text.Units

/-! # Offsets there and back

Counting the characters before a byte and finding the byte at which a character begins undo each other, but for
rounding: a byte inside a character counts for all of it.

* `Utf8.IsBoundary`: the bytes at which a character of a text begins, or the text ends.
* `charOffset_le_iff`: the two offsets bound each other.
* `offsets_inverse`: what is left of an offset after both.
-/

namespace Traceback
set_option autoImplicit false

/-! ## Boundaries -/

/-- Up to byte `b` stand whole characters of `t`. -/
def Utf8.IsBoundary (t : Text) (b : Nat) : Prop := ∃ front, front <+: t ∧ (encode front).length = b

theorem isBoundary_byteOffset (t : Text) (i : Nat) : Utf8.IsBoundary t (byteOffset t i) :=
  ⟨t.take i, List.take_prefix i t, rfl⟩

theorem Utf8.IsBoundary.exists_byteOffset {t : Text} {b : Nat} (h : IsBoundary t b) :
    ∃ i ≤ t.length, byteOffset t i = b := by
  obtain ⟨front, ⟨back, rfl⟩, rfl⟩ := h
  exact ⟨front.length, by simp, by rw [byteOffset, List.take_left]⟩

/-! ## Cuts -/

namespace Utf8

theorem lossy_encode_append (t : Text) (rest : Bytes) : lossy (encode t ++ rest) = t ++ lossy rest := by
  induction t with
  | nil => rfl
  | cons c t ih =>
    rw [lossy, units, encode, List.flatMap_cons, List.append_assoc, unitsFrom_encodeChar]
    exact congrArg (c :: ·) ih

/-- Any byte begins a unit, be it a malformed one. -/
theorem lossy_ne_nil {bytes : Bytes} (h : bytes ≠ []) : lossy bytes ≠ [] := by
  obtain ⟨b, rest, rfl⟩ := List.exists_cons_of_ne_nil h
  apply List.ne_nil_of_length_pos
  rw [← length_starts, starts, startsFrom]
  simp [State.continues]

end Utf8

theorem charOffset_mono (line : Bytes) {j k : Nat} (h : j ≤ k) : charOffset line j ≤ charOffset line k := by
  rw [charOffset_eq_countP, charOffset_eq_countP]
  apply List.countP_mono_left
  intro p _ hp
  simp only [decide_eq_true_eq] at hp ⊢
  omega

theorem charOffset_min (line : Bytes) (k : Nat) : charOffset line (min k line.length) = charOffset line k := by
  rw [charOffset, charOffset, ← List.take_eq_take_min]

/-- A cut behind the first byte of a character counts that character. -/
theorem lt_charOffset {t : Text} {i k : Nat} (hi : i < t.length) (hk : byteOffset t i < k) :
    i < charOffset (Utf8.encode t) k := by
  have hsplit : Utf8.encode t = Utf8.encode (t.take i) ++ Utf8.encode (t.drop i) := by
    rw [← Utf8.encode_append, List.take_append_drop]
  have hlength : (t.take i).length = i := by simp; omega
  have htail : (Utf8.encode (t.drop i)).take (k - byteOffset t i) ≠ [] := by
    have hdrop : t.drop i ≠ [] := by simpa using hi
    have hlong : k - byteOffset t i ≠ 0 := by omega
    rw [Ne, List.take_eq_nil_iff, not_or]
    exact ⟨hlong, Utf8.encode_ne_nil hdrop⟩
  have hpos := List.length_pos_iff.mpr (Utf8.lossy_ne_nil htail)
  rw [charOffset, hsplit, List.take_append, List.take_of_length_le (Nat.le_of_lt hk), Utf8.lossy_encode_append,
    List.length_append, hlength]
  exact Nat.lt_add_of_pos_right hpos

/-- **The offsets bound each other.** Up to byte `k` begin at most `i` characters when character `i` begins there or
later, and only then. -/
theorem charOffset_le_iff (t : Text) (i k : Nat) :
    charOffset (Utf8.encode t) k ≤ i ↔ min k (Utf8.encode t).length ≤ byteOffset t i := by
  constructor
  · intro h
    by_contra hlt
    have hi : i < t.length := by
      by_contra hge
      have hend : byteOffset t i = (Utf8.encode t).length := by rw [byteOffset, List.take_of_length_le (by omega)]
      omega
    have hcount : i < charOffset (Utf8.encode t) k := lt_charOffset hi (by omega)
    omega
  · intro h
    calc charOffset (Utf8.encode t) k = charOffset (Utf8.encode t) (min k (Utf8.encode t).length) :=
          (charOffset_min _ k).symm
      _ ≤ charOffset (Utf8.encode t) (byteOffset t i) := charOffset_mono _ h
      _ = min i t.length := charOffset_byteOffset t i
      _ ≤ i := Nat.min_le_left ..

/-! ## There and back -/

theorem isLeast_byteOffset_charOffset (t : Text) (k : Nat) :
    IsLeast {b | Utf8.IsBoundary t b ∧ min k (Utf8.encode t).length ≤ b}
      (byteOffset t (charOffset (Utf8.encode t) k)) := by
  constructor
  · exact ⟨isBoundary_byteOffset t _, (charOffset_le_iff t _ k).mp (Nat.le_refl _)⟩
  · rintro b ⟨hb, hle⟩
    obtain ⟨i, -, rfl⟩ := hb.exists_byteOffset
    exact byteOffset_mono t ((charOffset_le_iff t i k).mpr hle)

theorem byteOffset_charOffset {t : Text} {b : Nat} (h : Utf8.IsBoundary t b) :
    byteOffset t (charOffset (Utf8.encode t) b) = b := by
  obtain ⟨i, hi, rfl⟩ := h.exists_byteOffset
  rw [charOffset_byteOffset, Nat.min_eq_left hi]

theorem byteOffset_append (front back : Text) : byteOffset (front ++ back) front.length = (Utf8.encode front).length := by
  rw [byteOffset, List.take_left]

/-- Inside a character there is no boundary. -/
theorem byteOffset_charOffset_inside (front back : Text) (c : Char) {k : Nat} (hk : (Utf8.encode front).length < k)
    (hle : k ≤ (Utf8.encode (front ++ [c])).length) :
    byteOffset (front ++ c :: back) (charOffset (Utf8.encode (front ++ c :: back)) k) =
      (Utf8.encode (front ++ [c])).length := by
  have hfirst : byteOffset (front ++ c :: back) front.length = (Utf8.encode front).length := byteOffset_append ..
  have hnext : byteOffset (front ++ c :: back) (front.length + 1) = (Utf8.encode (front ++ [c])).length := by
    have h := byteOffset_append (front ++ [c]) back
    rwa [List.append_assoc, List.singleton_append, List.length_append, List.length_singleton] at h
  have hgt : front.length < charOffset (Utf8.encode (front ++ c :: back)) k := lt_charOffset (by simp) (by omega)
  have hcount : charOffset (Utf8.encode (front ++ c :: back)) k ≤ front.length + 1 := by
    rw [charOffset_le_iff]
    omega
  rw [Nat.le_antisymm hcount hgt, hnext]

/-- **Offsets in bytes and in characters are inverse to each other.** From a character to its byte and back nothing is
lost but what lies beyond the text. From a byte to characters and back one arrives at the first boundary that is not in
front of it, which for a byte inside a character is the end of that character. -/
theorem offsets_inverse (t : Text) (i k : Nat) :
    charOffset (Utf8.encode t) (byteOffset t i) = min i t.length ∧
    IsLeast {b | Utf8.IsBoundary t b ∧ min k (Utf8.encode t).length ≤ b}
      (byteOffset t (charOffset (Utf8.encode t) k)) ∧
    (i ≤ t.length → charOffset (Utf8.encode t) (byteOffset t i) = i) ∧
    (Utf8.IsBoundary t k → byteOffset t (charOffset (Utf8.encode t) k) = k) ∧
    ∀ (front : Text) (c : Char) (back : Text), t = front ++ c :: back → (Utf8.encode front).length < k →
      k ≤ (Utf8.encode (front ++ [c])).length →
      byteOffset t (charOffset (Utf8.encode t) k) = (Utf8.encode (front ++ [c])).length := by
  have hchar : charOffset (Utf8.encode t) (byteOffset t i) = min i t.length := charOffset_byteOffset t i
  refine ⟨hchar, isLeast_byteOffset_charOffset t k, fun hi => ?_, byteOffset_charOffset, ?_⟩
  · rw [hchar, Nat.min_eq_left hi]
  · rintro front c back rfl hk hle
    exact byteOffset_charOffset_inside front back c hk hle

/-- The third byte of the four that `😀` takes. -/
theorem offsets_inverse_emoji :
    let t : Text := "é😀!".toList
    (2 ≤ t.length ∧ charOffset (Utf8.encode t) (byteOffset t 2) = 2) ∧
      (Utf8.IsBoundary t 2 ∧ byteOffset t (charOffset (Utf8.encode t) 2) = 2) ∧
      t = ['é'] ++ '😀' :: ['!'] ∧ (Utf8.encode ['é']).length < 5 ∧ 5 ≤ (Utf8.encode ['é', '😀']).length ∧
      byteOffset t (charOffset (Utf8.encode t) 5) = (Utf8.encode ['é', '😀']).length := by
  intro t
  have hboundary : Utf8.IsBoundary t 2 := ⟨['é'], by decide, by decide⟩
  obtain ⟨-, -, hchar, hbyte, -⟩ := offsets_inverse t 2 2
  obtain ⟨-, -, -, -, hinside⟩ := offsets_inverse t 2 5
  exact ⟨⟨by decide, hchar (by decide)⟩, ⟨hboundary, hbyte hboundary⟩, rfl, by decide, by decide,
    hinside ['é'] '😀' ['!'] rfl (by decide) (by decide)⟩

end Traceback
