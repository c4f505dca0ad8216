import Traceback.Proofs.Text.WellFormed
import Traceback.Store.Record

/-! # What has been read

When a codec has read a value from the front of some bytes, so have the codecs it is built from. These are the
ways back from a reading to the readings of its parts, one for each way to build a codec.

* `Codec.pair_read_iff`, `Codec.option_read_some_iff`, `Codec.text_read_iff`, …: a reading in terms of its parts.
* `Codec.readLink_back_iff`, `Codec.readLinked_iff`: the same for links.
-/

namespace Traceback.Codec
set_option autoImplicit false

variable {α β : Type} {c : Codec α} {d : Codec β} {bytes rest : Bytes}

/-! ## Structures -/

theorem iso_read_iff {into : α → β} {out : β → α} {b : β} :
    (c.iso into out).read bytes = .ok (b, rest) ↔ ∃ a, c.read bytes = .ok (a, rest) ∧ into a = b := by
  simp only [iso]
  constructor
  · intro h
    split at h
    next => cases h
    next a _ ha =>
      cases h
      exact ⟨a, ha, rfl⟩
  · rintro ⟨a, ha, rfl⟩
    rw [ha]

theorem pair_read_iff {p : α × β} :
    (c.pair d).read bytes = .ok (p, rest) ↔ ∃ mid, c.read bytes = .ok (p.1, mid) ∧ d.read mid = .ok (p.2, rest) := by
  simp only [pair]
  constructor
  · intro h
    split at h
    next => cases h
    next a mid ha =>
      split at h
      next => cases h
      next b _ hb =>
        cases h
        exact ⟨mid, ha, hb⟩
  · rintro ⟨mid, ha, hb⟩
    rw [ha]
    dsimp only
    rw [hb]

/-! ## Tags -/

theorem tag_read_iff {fault : CodecFault} {b : Bool} :
    (tag fault).read bytes = .ok (b, rest) ↔ bytes = (tag fault).write b ++ rest := by
  simp only [tag]
  constructor
  · intro h
    cases bytes with
    | nil => cases h
    | cons first mid =>
      dsimp only at h
      split at h
      next hfirst =>
        cases h
        rw [hfirst]
        rfl
      next =>
        split at h
        next hfirst =>
          cases h
          rw [hfirst]
          rfl
        next => cases h
  · rintro rfl
    cases b <;> rfl

theorem option_read_none_iff :
    c.option.read bytes = .ok (none, rest) ↔ (tag .badOption).read bytes = .ok (false, rest) := by
  simp only [option]
  constructor
  · intro h
    split at h
    next => cases h
    next _ htag =>
      cases h
      exact htag
    next =>
      split at h
      · cases h
      · cases h
  · intro htag
    rw [htag]

theorem option_read_some_iff {a : α} :
    c.option.read bytes = .ok (some a, rest) ↔
      ∃ mid, (tag .badOption).read bytes = .ok (true, mid) ∧ c.read mid = .ok (a, rest) := by
  simp only [option]
  constructor
  · intro h
    split at h
    next => cases h
    next => cases h
    next mid htag =>
      split at h
      next => cases h
      next ha =>
        cases h
        exact ⟨mid, htag, ha⟩
  · rintro ⟨mid, htag, ha⟩
    rw [htag]
    dsimp only
    rw [ha]

/-! ## Counts -/

/-- A text is read where its size and then its bytes stand. -/
theorem text_read_iff {t : Text} :
    text.read bytes = .ok (t, rest) ↔ nat.read bytes = .ok ((Utf8.encode t).length, Utf8.encode t ++ rest) := by
  simp only [text]
  constructor
  · intro h
    split at h
    next => cases h
    next n mid hn =>
      split at h
      next => cases h
      next hlong =>
        split at h
        next => cases h
        next hfound =>
          cases h
          have htake : mid.take n = Utf8.encode t := Utf8.decode?_eq_some_iff.mp hfound
          have hlength : (mid.take n).length = n := List.length_take_of_le (by omega)
          rw [hn, ← htake, hlength, List.take_append_drop]
  · intro hn
    have hlong : ¬ (Utf8.encode t ++ rest).length < (Utf8.encode t).length := by
      rw [List.length_append]
      omega
    rw [hn]
    dsimp only
    rw [if_neg hlong, List.take_left, Utf8.decode?_encode, List.drop_left]

theorem readMany_zero_iff {l : List α} : c.readMany 0 bytes = .ok (l, rest) ↔ l = [] ∧ rest = bytes := by
  rw [readMany]
  constructor
  · intro h
    cases h
    exact ⟨rfl, rfl⟩
  · rintro ⟨rfl, rfl⟩
    rfl

theorem readMany_succ_iff {count : Nat} {l : List α} :
    c.readMany (count + 1) bytes = .ok (l, rest) ↔
      ∃ a l' mid, c.read bytes = .ok (a, mid) ∧ c.readMany count mid = .ok (l', rest) ∧ l = a :: l' := by
  rw [readMany]
  constructor
  · intro h
    split at h
    next => cases h
    next a mid ha =>
      split at h
      next => cases h
      next l' _ hl =>
        cases h
        exact ⟨a, l', mid, ha, hl, rfl⟩
  · rintro ⟨a, l', mid, ha, hl, rfl⟩
    rw [ha]
    dsimp only
    rw [hl]

theorem list_read_iff {l : List α} :
    c.list.read bytes = .ok (l, rest) ↔ ∃ n mid, nat.read bytes = .ok (n, mid) ∧ c.readMany n mid = .ok (l, rest) := by
  simp only [list]
  constructor
  · intro h
    split at h
    next => cases h
    next n mid hn => exact ⟨n, mid, hn, h⟩
  · rintro ⟨n, mid, hn, hl⟩
    rw [hn]
    exact hl

/-! ## Links -/

section Links
variable {depth : Nat}

theorem readLink_absent_iff :
    readLink c (depth + 1) bytes = .ok (.absent, rest) ↔ (tag .badOption).read bytes = .ok (false, rest) := by
  rw [readLink]
  constructor
  · intro h
    split at h
    next => cases h
    next _ htag =>
      cases h
      exact htag
    next =>
      split at h
      · cases h
      · cases h
  · intro htag
    rw [htag]

theorem readLink_back_iff {l : Linked α} :
    readLink c (depth + 1) bytes = .ok (l.link, rest) ↔
      ∃ mid, (tag .badOption).read bytes = .ok (true, mid) ∧ readLinked c depth mid = .ok (l, rest) := by
  rw [readLink]
  constructor
  · intro h
    split at h
    next => cases h
    next => cases h
    next mid htag =>
      split at h
      next => cases h
      next found _ hl =>
        obtain ⟨hlink, rfl⟩ := Prod.mk.inj (Except.ok.inj h)
        have e : found = l := Option.some.inj (congrArg Linked.ofLink? hlink)
        exact ⟨mid, htag, e ▸ hl⟩
  · rintro ⟨mid, htag, hl⟩
    rw [htag]
    dsimp only
    rw [hl]

theorem readLinked_iff {l : Linked α} :
    readLinked c (depth + 1) bytes = .ok (l, rest) ↔
      ∃ mid₁ mid₂ mid₃, c.read bytes = .ok (l.error, mid₁) ∧ readLink c depth mid₁ = .ok (l.cause, mid₂) ∧
        readLink c depth mid₂ = .ok (l.context, mid₃) ∧ bool.read mid₃ = .ok (l.hidesContext, rest) := by
  rw [readLinked]
  constructor
  · intro h
    split at h
    next => cases h
    next error mid₁ herror =>
      split at h
      next => cases h
      next cause mid₂ hcause =>
        split at h
        next => cases h
        next context mid₃ hcontext =>
          split at h
          next => cases h
          next hidesContext _ hhides =>
            cases h
            exact ⟨mid₁, mid₂, mid₃, herror, hcause, hcontext, hhides⟩
  · rintro ⟨mid₁, mid₂, mid₃, herror, hcause, hcontext, hhides⟩
    rw [herror]
    dsimp only
    rw [hcause]
    dsimp only
    rw [hcontext]
    dsimp only
    rw [hhides]

end Links
end Traceback.Codec
