import Traceback.Proofs.Store.Reading

/-! # Reading never makes more of the bytes

Whatever bytes a value was read from, writing it takes no more of them: a number has no shorter form than the one
that is written, texts have one form, and a group that is named again replaces the one before.

* `Codec.Shrinks c`: what `c` has read is no shorter than what it writes.
* `Codec.pair_shrinks`, `Codec.list_shrinks`, …: one lemma for each way to build a codec.
* `Codec.readLinked_stable`: errors are read at no greater depth than the bytes allow.
-/

namespace Traceback
set_option autoImplicit false

namespace Codec

variable {α β : Type} {c : Codec α} {d : Codec β}

def Shrinks (c : Codec α) : Prop :=
  ∀ ⦃bytes rest : Bytes⦄ ⦃a : α⦄, c.read bytes = .ok (a, rest) → (c.write a).length + rest.length ≤ bytes.length

/-! ## Numbers -/

theorem length_writeNat_of_lt {n : Nat} (h : n < 128) : (writeNat n).length = 1 := by
  rw [writeNat, if_pos h]
  rfl

theorem length_writeNat_of_le {n : Nat} (h : 128 ≤ n) : (writeNat n).length = (writeNat (n / 128)).length + 1 := by
  rw [writeNat, if_neg (by omega), List.length_cons]

theorem length_writeNat_pos (n : Nat) : 0 < (writeNat n).length := by
  rcases Nat.lt_or_ge n 128 with h | h
  · rw [length_writeNat_of_lt h]
    exact Nat.one_pos
  · rw [length_writeNat_of_le h]
    omega

/-- Seven more bits take at most one more byte. -/
theorem length_writeNat_add (low high : Nat) (h : low < 128) :
    (writeNat (low + 128 * high)).length ≤ (writeNat high).length + 1 := by
  rcases Nat.lt_or_ge (low + 128 * high) 128 with hn | hn
  · rw [length_writeNat_of_lt hn]
    omega
  · have e : (low + 128 * high) / 128 = high := by omega
    exact Nat.le_of_eq (by rw [length_writeNat_of_le hn, e])

theorem length_writeNat_mono {m n : Nat} (h : m ≤ n) : (writeNat m).length ≤ (writeNat n).length := by
  induction n using Nat.strongRecOn generalizing m with
  | ind n ih =>
    rcases Nat.lt_or_ge m 128 with hm | hm
    · have := length_writeNat_pos n
      rw [length_writeNat_of_lt hm]
      omega
    · have hdiv := ih (n / 128) (by omega) (Nat.div_le_div_right h (c := 128))
      have hn := length_writeNat_of_le (Nat.le_trans hm h)
      rw [length_writeNat_of_le hm]
      omega

theorem readNat_shrinks {places n : Nat} {bytes rest : Bytes} (h : readNat places bytes = .ok (n, rest)) :
    (writeNat n).length + rest.length ≤ bytes.length := by
  induction places generalizing bytes n with
  | zero => cases h
  | succ places ih =>
    cases bytes with
    | nil => cases h
    | cons b mid =>
      have hb : b.toNat < 256 := b.toNat_lt
      rw [readNat] at h
      rw [List.length_cons]
      split at h
      next hlow =>
        split at h
        next => cases h
        next =>
          cases h
          rw [length_writeNat_of_lt (UInt8.lt_iff_toNat_lt.mp hlow)]
          omega
      next =>
        cases hhigh : readNat places mid with
        | error f =>
          rw [hhigh] at h
          cases h
        | ok r =>
          rw [hhigh] at h
          cases h
          have hrest := ih hhigh
          have hn := length_writeNat_add (b.toNat - 128) r.1 (by omega)
          omega

theorem nat_shrinks : nat.Shrinks := fun _ _ _ h => readNat_shrinks h

/-! ## Structures -/

theorem iso_shrinks (hc : c.Shrinks) {into : α → β} {out : β → α}
    (hinto : ∀ a, (c.write (out (into a))).length ≤ (c.write a).length) : (c.iso into out).Shrinks := by
  intro bytes rest b h
  obtain ⟨a, ha, rfl⟩ := iso_read_iff.mp h
  exact Nat.le_trans (Nat.add_le_add_right (hinto a) _) (hc ha)

theorem pair_shrinks (hc : c.Shrinks) (hd : d.Shrinks) : (c.pair d).Shrinks := by
  intro bytes rest p h
  obtain ⟨mid, hfirst, hsecond⟩ := pair_read_iff.mp h
  have h₁ := hc hfirst
  have h₂ := hd hsecond
  simp only [pair, List.length_append]
  omega

theorem number_shrinks : number.Shrinks := by
  refine iso_shrinks nat_shrinks fun n => length_writeNat_mono ?_
  rw [UInt64.toNat_ofNat']
  exact Nat.mod_le n _

/-! ## Tags -/

theorem tag_shrinks (fault : CodecFault) : (tag fault).Shrinks := by
  intro bytes rest b h
  exact Nat.le_of_eq (by rw [tag_read_iff.mp h, List.length_append])

theorem option_shrinks (hc : c.Shrinks) : c.option.Shrinks := by
  intro bytes rest o h
  cases o with
  | none => exact tag_shrinks _ (option_read_none_iff.mp h)
  | some a =>
    obtain ⟨mid, htag, ha⟩ := option_read_some_iff.mp h
    have h₁ := tag_shrinks _ htag
    have h₂ := hc ha
    simp only [option, List.length_append]
    omega

/-! ## Counts -/

theorem text_shrinks : text.Shrinks := by
  intro bytes rest t h
  have hsize := nat_shrinks (text_read_iff.mp h)
  simp only [text, List.length_append] at hsize ⊢
  omega

theorem readMany_shrinks (hc : c.Shrinks) {count : Nat} {bytes rest : Bytes} {l : List α}
    (h : c.readMany count bytes = .ok (l, rest)) :
    l.length = count ∧ (l.flatMap c.write).length + rest.length ≤ bytes.length := by
  induction count generalizing bytes l with
  | zero =>
    obtain ⟨rfl, rfl⟩ := readMany_zero_iff.mp h
    exact ⟨rfl, Nat.le_of_eq (Nat.zero_add _)⟩
  | succ count ih =>
    obtain ⟨a, l', mid, ha, hl, rfl⟩ := readMany_succ_iff.mp h
    obtain ⟨hcount, hrest⟩ := ih hl
    have hfirst := hc ha
    refine ⟨by rw [List.length_cons, hcount], ?_⟩
    rw [List.flatMap_cons, List.length_append]
    omega

theorem list_shrinks (hc : c.Shrinks) : c.list.Shrinks := by
  intro bytes rest l h
  obtain ⟨n, mid, hn, hl⟩ := list_read_iff.mp h
  obtain ⟨rfl, hrest⟩ := readMany_shrinks hc hl
  have hsize := nat_shrinks hn
  simp only [list, List.length_append]
  omega

/-! ## Groups -/

/-- Lists are no longer in bytes when they have no more elements and these are no longer. -/
theorem length_list_write_le {l l' : List α} (hlength : l.length ≤ l'.length)
    (hbytes : (l.flatMap c.write).length ≤ (l'.flatMap c.write).length) :
    (c.list.write l).length ≤ (c.list.write l').length := by
  have hcount := length_writeNat_mono hlength
  simp only [list, List.length_append]
  exact Nat.add_le_add hcount hbytes

theorem length_put_le (name text : Text) (l : List (Text × Text)) :
    (Groups.put name text l).length ≤ l.length + 1 := by
  induction l with
  | nil => exact Nat.le_refl 1
  | cons pair l ih =>
    rw [Groups.put]
    split
    · exact Nat.le_succ _
    · exact Nat.succ_le_succ ih

theorem length_flatMap_put_le {α : Type} (w : Text × Text → List α) (name text : Text) (l : List (Text × Text)) :
    ((Groups.put name text l).flatMap w).length ≤ (l.flatMap w).length + (w (name, text)).length := by
  induction l with
  | nil =>
    rw [Groups.put, List.flatMap_singleton]
    exact Nat.le_add_left _ _
  | cons pair l ih =>
    rw [Groups.put]
    split
    · rw [List.flatMap_cons, List.flatMap_cons, List.length_append, List.length_append]
      omega
    · rw [List.flatMap_cons, List.flatMap_cons, List.length_append, List.length_append]
      omega

theorem length_foldl_insert_le (l : List (Text × Text)) (g : Groups) :
    (l.foldl (fun g pair => g.insert pair.1 pair.2) g).pairs.length ≤ g.pairs.length + l.length ∧
    ((l.foldl (fun g pair => g.insert pair.1 pair.2) g).pairs.flatMap (text.pair text).write).length ≤
      (g.pairs.flatMap (text.pair text).write).length + (l.flatMap (text.pair text).write).length := by
  induction l generalizing g with
  | nil => exact ⟨Nat.le_refl _, Nat.le_refl _⟩
  | cons pair l ih =>
    obtain ⟨hcount, hbytes⟩ := ih (g.insert pair.1 pair.2)
    have hput : (g.insert pair.1 pair.2).pairs.length ≤ g.pairs.length + 1 := length_put_le pair.1 pair.2 g.pairs
    have hput' : ((g.insert pair.1 pair.2).pairs.flatMap (text.pair text).write).length ≤
        (g.pairs.flatMap (text.pair text).write).length + ((text.pair text).write pair).length :=
      length_flatMap_put_le (text.pair text).write pair.1 pair.2 g.pairs
    rw [List.foldl_cons, List.length_cons, List.flatMap_cons, List.length_append]
    exact ⟨by omega, by omega⟩

theorem groups_shrinks : groups.Shrinks := by
  refine iso_shrinks (list_shrinks (pair_shrinks text_shrinks text_shrinks)) fun l => ?_
  obtain ⟨hcount, hbytes⟩ := length_foldl_insert_le l {}
  exact length_list_write_le (Nat.le_trans hcount (Nat.le_of_eq (Nat.zero_add _)))
    (Nat.le_trans hbytes (Nat.le_of_eq (Nat.zero_add _)))

/-! ## Parts of a report -/

theorem category_shrinks : category.Shrinks :=
  iso_shrinks (pair_shrinks text_shrinks (list_shrinks text_shrinks)) fun _ => Nat.le_refl _

theorem frame_shrinks : frame.Shrinks := by
  have hnumber := option_shrinks number_shrinks
  exact iso_shrinks (pair_shrinks text_shrinks (pair_shrinks number_shrinks (pair_shrinks hnumber (pair_shrinks hnumber
    (pair_shrinks hnumber (pair_shrinks text_shrinks (option_shrinks text_shrinks))))))) fun _ => Nat.le_refl _

theorem restated_shrinks : restated.Shrinks :=
  iso_shrinks (pair_shrinks category_shrinks (pair_shrinks text_shrinks (pair_shrinks (option_shrinks text_shrinks)
    (pair_shrinks groups_shrinks (pair_shrinks text_shrinks (list_shrinks frame_shrinks)))))) fun _ => Nat.le_refl _

/-! ## Links -/

section Links
variable {depth depth' : Nat} {bytes rest : Bytes}

theorem readLinked_shrinks_of_readLink (hc : c.Shrinks) {l : Linked α}
    (hlinks : ∀ {bytes rest k}, readLink c depth bytes = .ok (k, rest) →
      (writeLink c k).length + rest.length ≤ bytes.length)
    (h : readLinked c (depth + 1) bytes = .ok (l, rest)) :
    ((linked c).write l).length + rest.length ≤ bytes.length := by
  obtain ⟨mid₁, mid₂, mid₃, herror, hcause, hcontext, hhides⟩ := readLinked_iff.mp h
  have h₁ := hc herror
  have h₂ := hlinks hcause
  have h₃ := hlinks hcontext
  have h₄ := tag_shrinks _ hhides
  simp only [linked, bool, List.length_append]
  omega

theorem readLink_shrinks (hc : c.Shrinks) {k : Link α} (h : readLink c depth bytes = .ok (k, rest)) :
    (writeLink c k).length + rest.length ≤ bytes.length := by
  induction depth using Nat.strongRecOn generalizing bytes rest k with
  | ind depth ih =>
    obtain _ | depth := depth
    · cases h
    cases k with
    | absent => exact tag_shrinks _ (readLink_absent_iff.mp h)
    | back error hidesContext cause context =>
      obtain ⟨mid, htag, hl⟩ := readLink_back_iff (l := ⟨error, hidesContext, cause, context⟩).mp h
      obtain _ | depth := depth
      · cases hl
      have h₁ := tag_shrinks _ htag
      have h₂ := readLinked_shrinks_of_readLink hc (ih depth (by omega)) hl
      have e : writeLink c (.back error hidesContext cause context) =
        (tag .badOption).write true ++ (linked c).write ⟨error, hidesContext, cause, context⟩ := rfl
      rw [e, List.length_append]
      omega

theorem linked_shrinks (hc : c.Shrinks) : (linked c).Shrinks := fun _ _ _ h =>
  readLinked_shrinks_of_readLink hc (readLink_shrinks hc) h

/-! ### Depth -/

/-- A level of errors takes a tag at least. -/
theorem readLinked_congr (hc : c.Shrinks)
    (hlinks : ∀ mid : Bytes, mid.length ≤ bytes.length → readLink c depth mid = readLink c depth' mid) :
    readLinked c (depth + 1) bytes = readLinked c (depth' + 1) bytes := by
  rw [readLinked, readLinked]
  cases herror : c.read bytes with
  | error f => rfl
  | ok r =>
    have h₁ := hc herror
    dsimp only
    rw [hlinks r.2 (by omega)]
    cases hcause : readLink c depth' r.2 with
    | error f => rfl
    | ok r' =>
      have h₂ := readLink_shrinks hc hcause
      dsimp only
      rw [hlinks r'.2 (by omega)]

theorem readLink_stable (hc : c.Shrinks) (h : 2 * bytes.length + 1 ≤ depth) (h' : 2 * bytes.length + 1 ≤ depth') :
    readLink c depth bytes = readLink c depth' bytes := by
  induction hn : bytes.length using Nat.strongRecOn generalizing bytes depth depth' with
  | ind n ih =>
    obtain ⟨depth, rfl⟩ : ∃ d, depth = d + 1 := ⟨depth - 1, by omega⟩
    obtain ⟨depth', rfl⟩ : ∃ d, depth' = d + 1 := ⟨depth' - 1, by omega⟩
    rw [readLink, readLink]
    cases htag : (tag .badOption).read bytes with
    | error f => rfl
    | ok r =>
      obtain ⟨present, mid⟩ := r
      cases present with
      | false => rfl
      | true =>
        have hmid : 1 + mid.length ≤ bytes.length := tag_shrinks _ htag
        obtain ⟨depth, rfl⟩ : ∃ d, depth = d + 1 := ⟨depth - 1, by omega⟩
        obtain ⟨depth', rfl⟩ : ∃ d, depth' = d + 1 := ⟨depth' - 1, by omega⟩
        have hlinked : readLinked c (depth + 1) mid = readLinked c (depth' + 1) mid :=
          readLinked_congr hc fun mid' hmid' => ih mid'.length (by omega) (by omega) (by omega) rfl
        dsimp only
        rw [hlinked]

theorem readLinked_stable (hc : c.Shrinks) (h : 2 * bytes.length + 2 ≤ depth) :
    readLinked c depth bytes = (linked c).read bytes := by
  obtain ⟨depth, rfl⟩ : ∃ d, depth = d + 1 := ⟨depth - 1, by omega⟩
  exact readLinked_congr hc fun mid hmid => readLink_stable hc (by omega) (by omega)

end Links

theorem report_shrinks : report.Shrinks := linked_shrinks restated_shrinks

end Codec
end Traceback
