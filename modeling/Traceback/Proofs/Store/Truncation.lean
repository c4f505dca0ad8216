import Traceback.Proofs.Store.Reading
import Traceback.Proofs.Store.Record

/-! # Records that were cut off

A codec never looks at what follows the value that it reads. So bytes that stop inside what was written for a value
cannot be read: what follows them would have been left over when the whole was read.

* `Codec.Extends c`: what `c` has read, it still reads when more bytes follow.
* `Codec.Delimits.read_take`: what was written is not read when it is cut off.
* `Record.decode_take`: nor is a record, and no record begins with another.
-/

namespace Traceback
set_option autoImplicit false

namespace Codec

variable {α β : Type} {c : Codec α} {d : Codec β}

def Extends (c : Codec α) : Prop :=
  ∀ ⦃bytes rest : Bytes⦄ ⦃a : α⦄, c.read bytes = .ok (a, rest) → ∀ more, c.read (bytes ++ more) = .ok (a, rest ++ more)

/-! ## Ways to build a codec -/

theorem readNat_append {places n : Nat} {bytes rest : Bytes} (h : readNat places bytes = .ok (n, rest)) (more : Bytes) :
    readNat places (bytes ++ more) = .ok (n, rest ++ more) := by
  induction places generalizing bytes n with
  | zero => cases h
  | succ places ih =>
    cases bytes with
    | nil => cases h
    | cons b mid =>
      rw [readNat] at h
      rw [List.cons_append, readNat]
      by_cases hb : b < 128
      · rw [if_pos hb] at h ⊢
        split at h
        next => cases h
        next hlast =>
          cases h
          rw [if_neg hlast]
      · rw [if_neg hb] at h ⊢
        cases hhigh : readNat places mid with
        | error f =>
          rw [hhigh] at h
          cases h
        | ok r =>
          rw [hhigh] at h
          cases h
          rw [ih hhigh]

theorem nat_extends : nat.Extends := fun _ _ _ h more => readNat_append h more

theorem iso_extends (hc : c.Extends) (into : α → β) (out : β → α) : (c.iso into out).Extends := by
  intro bytes rest b h more
  obtain ⟨a, ha, hinto⟩ := iso_read_iff.mp h
  exact iso_read_iff.mpr ⟨a, hc ha more, hinto⟩

theorem pair_extends (hc : c.Extends) (hd : d.Extends) : (c.pair d).Extends := by
  intro bytes rest p h more
  obtain ⟨mid, hfirst, hsecond⟩ := pair_read_iff.mp h
  exact pair_read_iff.mpr ⟨mid ++ more, hc hfirst more, hd hsecond more⟩

theorem number_extends : number.Extends := iso_extends nat_extends _ _

theorem tag_extends (fault : CodecFault) : (tag fault).Extends := by
  intro bytes rest b h more
  rw [tag_read_iff] at h ⊢
  rw [h, List.append_assoc]

theorem option_extends (hc : c.Extends) : c.option.Extends := by
  intro bytes rest o h more
  cases o with
  | none =>
    rw [option_read_none_iff] at h ⊢
    exact tag_extends _ h more
  | some a =>
    obtain ⟨mid, htag, ha⟩ := option_read_some_iff.mp h
    exact option_read_some_iff.mpr ⟨mid ++ more, tag_extends _ htag more, hc ha more⟩

theorem text_extends : text.Extends := by
  intro bytes rest t h more
  rw [text_read_iff] at h ⊢
  rw [nat_extends h more, List.append_assoc]

theorem readMany_append (hc : c.Extends) {count : Nat} {bytes rest : Bytes} {l : List α}
    (h : c.readMany count bytes = .ok (l, rest)) (more : Bytes) :
    c.readMany count (bytes ++ more) = .ok (l, rest ++ more) := by
  induction count generalizing bytes l with
  | zero =>
    obtain ⟨rfl, rfl⟩ := readMany_zero_iff.mp h
    rfl
  | succ count ih =>
    obtain ⟨a, l', mid, ha, hl, rfl⟩ := readMany_succ_iff.mp h
    exact readMany_succ_iff.mpr ⟨a, l', mid ++ more, hc ha more, ih hl, rfl⟩

theorem list_extends (hc : c.Extends) : c.list.Extends := by
  intro bytes rest l h more
  obtain ⟨n, mid, hn, hl⟩ := list_read_iff.mp h
  exact list_read_iff.mpr ⟨n, mid ++ more, nat_extends hn more, readMany_append hc hl more⟩

/-! ## Parts of a report -/

theorem category_extends : category.Extends := iso_extends (pair_extends text_extends (list_extends text_extends)) _ _

theorem groups_extends : groups.Extends := iso_extends (list_extends (pair_extends text_extends text_extends)) _ _

theorem frame_extends : frame.Extends := by
  have hnumber := option_extends number_extends
  exact iso_extends (pair_extends text_extends (pair_extends number_extends (pair_extends hnumber (pair_extends hnumber
    (pair_extends hnumber (pair_extends text_extends (option_extends text_extends))))))) _ _

theorem restated_extends : restated.Extends :=
  iso_extends (pair_extends category_extends (pair_extends text_extends (pair_extends (option_extends text_extends)
    (pair_extends groups_extends (pair_extends text_extends (list_extends frame_extends)))))) _ _

/-! ## Links -/

section Links
variable {depth depth' : Nat} {bytes rest : Bytes}

/-- More bytes are read with more depth, so the depth must be free to grow too. -/
theorem readLinked_append_of_readLink (hc : c.Extends) {l : Linked α}
    (hlinks : ∀ {bytes rest k}, readLink c depth bytes = .ok (k, rest) →
      ∀ more, readLink c depth' (bytes ++ more) = .ok (k, rest ++ more))
    (h : readLinked c (depth + 1) bytes = .ok (l, rest)) (more : Bytes) :
    readLinked c (depth' + 1) (bytes ++ more) = .ok (l, rest ++ more) := by
  obtain ⟨mid₁, mid₂, mid₃, herror, hcause, hcontext, hhides⟩ := readLinked_iff.mp h
  exact readLinked_iff.mpr ⟨mid₁ ++ more, mid₂ ++ more, mid₃ ++ more, hc herror more, hlinks hcause more,
    hlinks hcontext more, tag_extends _ hhides more⟩

theorem readLink_append (hc : c.Extends) (hdepth : depth ≤ depth') {k : Link α}
    (h : readLink c depth bytes = .ok (k, rest)) (more : Bytes) :
    readLink c depth' (bytes ++ more) = .ok (k, rest ++ more) := by
  induction depth using Nat.strongRecOn generalizing depth' bytes rest k more with
  | ind depth ih =>
    obtain _ | depth := depth
    · cases h
    obtain ⟨depth', rfl⟩ : ∃ d, depth' = d + 1 := ⟨depth' - 1, by omega⟩
    cases k with
    | absent =>
      rw [readLink_absent_iff] at h ⊢
      exact tag_extends _ h more
    | back error hidesContext cause context =>
      obtain ⟨mid, htag, hl⟩ := readLink_back_iff (l := ⟨error, hidesContext, cause, context⟩).mp h
      refine readLink_back_iff (l := ⟨error, hidesContext, cause, context⟩).mpr ⟨mid ++ more, tag_extends _ htag more, ?_⟩
      obtain _ | depth := depth
      · cases hl
      obtain ⟨depth', rfl⟩ : ∃ d, depth' = d + 1 := ⟨depth' - 1, by omega⟩
      exact readLinked_append_of_readLink hc (fun h more => ih depth (by omega) (Nat.le_of_lt_succ (by omega)) h more) hl more

theorem linked_extends (hc : c.Extends) : (linked c).Extends := by
  intro bytes rest l h more
  have hlength : bytes.length ≤ (bytes ++ more).length := by
    rw [List.length_append]
    omega
  exact readLinked_append_of_readLink hc (fun h more => readLink_append hc (by omega) h more) h more

end Links

theorem report_extends : report.Extends := linked_extends restated_extends

/-! ## Cutting off -/

/-- Were it read, the reading of the whole would leave the missing bytes over. -/
theorem Delimits.read_take {fits : α → Prop} (hc : c.Delimits fits) (hextends : c.Extends) {a : α} (ha : fits a) {n : Nat}
    (hn : n < (c.write a).length) : ∃ f, c.read ((c.write a).take n) = .error f := by
  cases h : c.read ((c.write a).take n) with
  | error f => exact ⟨f, rfl⟩
  | ok r =>
    have hwhole := hextends h ((c.write a).drop n)
    have hall := hc a ha []
    rw [List.take_append_drop] at hwhole
    rw [List.append_nil, hwhole] at hall
    have hleft : r.2 ++ (c.write a).drop n = [] := (Prod.mk.inj (Except.ok.inj hall)).2
    have hlength := congrArg List.length hleft
    rw [List.length_append, List.length_drop, List.length_nil] at hlength
    omega

end Codec

namespace Record

theorem length_mark : mark.length = 8 := by decide

theorem dropPrefix?_take {n : Nat} {start : Bytes} (hn : n < start.length) (bytes : Bytes) :
    Text.dropPrefix? start ((start ++ bytes).take n) = none := by
  induction start generalizing n with
  | nil => cases hn
  | cons b start ih =>
    cases n with
    | zero => rfl
    | succ n =>
      rw [List.cons_append, List.take_succ_cons, Text.dropPrefix?, if_pos rfl]
      exact ih (Nat.lt_of_succ_lt_succ hn)

theorem take_encode {r : Report} {n : Nat} (hn : 8 ≤ n) :
    (encode r).take n = mark ++ (Codec.report.write r).take (n - 8) := by
  rw [encode, List.take_append, length_mark, List.take_of_length_le (by rw [length_mark]; exact hn)]

/-- **A record that was cut off is not read**: its mark is missed, or the rest is found to be corrupt. So no record is
the beginning of another. -/
theorem decode_take (r : Report) (hr : r.Addressable) (n : Nat) (hn : n < (encode r).length) :
    (n < 8 → decode ((encode r).take n) = .error .badHeader) ∧
    (8 ≤ n → ∃ f, decode ((encode r).take n) = .error (.corrupt f)) ∧
    ∀ r' : Report, r'.Addressable → encode r' ≠ (encode r).take n := by
  have hshort : n < 8 → decode ((encode r).take n) = .error .badHeader := fun h => by
    rw [decode, encode, dropPrefix?_take (by rw [length_mark]; exact h)]
  have hlong : 8 ≤ n → ∃ f, decode ((encode r).take n) = .error (.corrupt f) := fun h => by
    rw [encode, List.length_append, length_mark] at hn
    obtain ⟨f, hf⟩ := Codec.report_delimits.read_take Codec.report_extends hr (by omega : n - 8 < _)
    refine ⟨f, ?_⟩
    rw [take_encode h, decode, Text.dropPrefix?_append]
    dsimp only
    rw [hf]
  refine ⟨hshort, hlong, fun r' hr' heq => ?_⟩
  have hread := decode_encode r' hr'
  rw [heq] at hread
  rcases Nat.lt_or_ge n 8 with h | h
  · rw [hshort h] at hread
    cases hread
  · obtain ⟨f, hf⟩ := hlong h
    rw [hf] at hread
    cases hread

/-- Cut off in the mark, and within the largest of all numbers. -/
theorem decode_take_linkedSample :
    linkedSample.Addressable ∧ 100 < (encode linkedSample).length ∧
      decode ((encode linkedSample).take 7) = .error .badHeader ∧
      (∃ f, decode ((encode linkedSample).take 100) = .error (.corrupt f)) ∧
      encode ⟨linkedSample.error, false, .absent, .absent⟩ ≠ (encode linkedSample).take 100 := by
  have hsample : linkedSample.Addressable := by decide
  have hlength : 100 < (encode linkedSample).length := by decide +kernel
  obtain ⟨hshort, -⟩ := decode_take linkedSample hsample 7 (by omega)
  obtain ⟨-, hlong, hother⟩ := decode_take linkedSample hsample 100 hlength
  exact ⟨hsample, hlength, hshort (by decide), hlong (by decide), hother _ (by decide)⟩

end Record
end Traceback
