import Mathlib.Data.List.Nodup
import Traceback.Proofs.Text.Rounding
import Traceback.Proofs.Text.WellFormed

/-! # The parts of a line

Decoding cuts bytes into parts, each of which is shown as one character: the bytes of a character, or a malformed part.
A malformed part stands where no character does, and is as long as it can be while some character begins with it; a byte
with which no character begins is one of its own. `Utf8.Parted` says so of the bytes, without the machine that reads them.

* `Utf8.Parted.unique`, `Utf8.exists_parted`: there is one way to cut bytes, which the machine finds.
* `charOffset_counts_parts`: the characters before a byte are the parts of the whole line that begin before it, though
  only the bytes before it are decoded.
-/

namespace Traceback
set_option autoImplicit false

namespace Utf8

/-! ## Parts -/

/-- A unit of decoding with the bytes that it is read from. -/
structure Part where
  bytes : Bytes
  unit : Option Char

/-- What is shown for a part. -/
def Part.char (part : Part) : Char := part.unit.getD replacement

/-- Some character begins with these bytes. -/
def Begins (bytes : Bytes) : Prop := ∃ c, bytes <+: encodeChar c

/-- The part that stands first, before the bytes `rest`. -/
inductive Front (rest : Bytes) : Part → Prop where
  | character (c : Char) : Front rest ⟨encodeChar c, some c⟩
  | malformed {bytes : Bytes} (hne : bytes ≠ []) (hnone : ∀ c, ¬ encodeChar c <+: bytes ++ rest)
      (hbegins : bytes.length = 1 ∨ Begins bytes)
      (hlongest : ∀ longer, Begins longer → longer <+: bytes ++ rest → longer.length ≤ bytes.length) :
      Front rest ⟨bytes, none⟩

/-- Bytes are cut into these parts. -/
inductive Parted : Bytes → List Part → Prop where
  | nil : Parted [] []
  | cons {part : Part} {rest : Bytes} {parts : List Part} (hfront : Front rest part) (hrest : Parted rest parts) :
      Parted (part.bytes ++ rest) (part :: parts)

/-- The bytes at which parts begin, the first of them at `n`. -/
def beginnings : (n : Nat) → List Part → List Nat
  | _, [] => []
  | n, part :: parts => n :: beginnings (n + part.bytes.length) parts

/-! ## One way to cut -/

theorem units_encodeChar_append (c : Char) (rest : Bytes) : units (encodeChar c ++ rest) = some c :: units rest :=
  unitsFrom_encodeChar c rest

/-- What stands first and begins a character is no longer than the longest that does. -/
theorem length_le_of_longest {bytes longest whole : Bytes} (hne : longest ≠ [])
    (hlongest : ∀ longer, Begins longer → longer <+: whole → longer.length ≤ longest.length)
    (hbegins : bytes.length = 1 ∨ Begins bytes) (hfront : bytes <+: whole) : bytes.length ≤ longest.length := by
  rcases hbegins with hone | hbegins
  · rw [hone]
    exact List.length_pos_iff.mpr hne
  · exact hlongest bytes hbegins hfront

theorem Front.unique {part part' : Part} {rest rest' : Bytes} (h : Front rest part) (h' : Front rest' part')
    (hbytes : part.bytes ++ rest = part'.bytes ++ rest') : part = part' ∧ rest = rest' := by
  have hpart : part = part' := by
    cases h with
    | character c =>
      cases h' with
      | character c' =>
        have hunits := congrArg units hbytes
        rw [units_encodeChar_append, units_encodeChar_append, List.cons.injEq, Option.some.injEq] at hunits
        rw [hunits.1]
      | malformed _ hnone _ _ => exact absurd ⟨rest, hbytes⟩ (hnone c)
    | @malformed bytes hne hnone hbegins hlongest =>
      cases h' with
      | character c' => exact absurd ⟨rest', hbytes.symm⟩ (hnone c')
      | @malformed bytes' hne' _ hbegins' hlongest' =>
        dsimp only at hbytes
        have hle := length_le_of_longest hne hlongest hbegins' (hbytes ▸ List.prefix_append _ _)
        have hge := length_le_of_longest hne' hlongest' hbegins (hbytes ▸ List.prefix_append _ _)
        rw [(List.append_inj hbytes (Nat.le_antisymm hge hle)).1]
  subst hpart
  exact ⟨rfl, List.append_cancel_left hbytes⟩

theorem Front.ne_nil {rest : Bytes} {part : Part} (h : Front rest part) : part.bytes ≠ [] := by
  cases h with
  | character c => exact List.length_pos_iff.mp (length_encodeChar_pos c)
  | malformed hne _ _ _ => exact hne

theorem Parted.unique {bytes : Bytes} {parts parts' : List Part} (h : Parted bytes parts) (h' : Parted bytes parts') :
    parts = parts' := by
  induction h generalizing parts' with
  | nil =>
    generalize hnil : ([] : Bytes) = bytes at h'
    cases h' with
    | nil => rfl
    | cons hfront _ => exact absurd (List.append_eq_nil_iff.mp hnil.symm).1 hfront.ne_nil
  | @cons part rest parts hfront hrest ih =>
    generalize hcut : part.bytes ++ rest = bytes at h'
    cases h' with
    | nil => exact absurd (List.append_eq_nil_iff.mp hcut).1 hfront.ne_nil
    | cons hfront' hrest' =>
      obtain ⟨rfl, rfl⟩ := hfront.unique hfront' hcut
      rw [ih hrest']

/-! ## Bytes of one unit -/

theorem eq_encodeChar_of_units {bytes : Bytes} {c : Char} (h : units bytes = [some c]) : bytes = encodeChar c := by
  have hlossy : lossy bytes = [c] := by rw [lossy, h]; rfl
  have hencode : encode (lossy bytes) = bytes := encode_lossy bytes (by rw [h]; rfl)
  rw [← hencode, hlossy, encode, List.flatMap_singleton]

theorem starts_cons (b : UInt8) (rest : Bytes) : starts (b :: rest) = 0 :: startsFrom (lead b.toNat).2 1 rest := rfl

theorem starts_encodeChar (c : Char) : starts (encodeChar c) = [0] := by
  have hunits : units (encodeChar c) = [some c] := by
    rw [← List.append_nil (encodeChar c), units_encodeChar_append]
    rfl
  have hlength : (starts (encodeChar c)).length = 1 := by
    rw [length_starts, lossy, hunits]
    rfl
  obtain ⟨b, rest, hb⟩ := List.exists_cons_of_length_pos (length_encodeChar_pos c)
  rw [hb, starts_cons, List.length_cons, Nat.succ_inj, List.length_eq_zero_iff] at hlength
  rw [hb, starts_cons, hlength]

theorem starts_take (bytes : Bytes) (k : Nat) : starts (bytes.take k) = (starts bytes).filter (· < k) := by
  have htake := startsFrom_take .between 0 k bytes
  rwa [Nat.zero_add] at htake

/-- Inside a character no unit begins. -/
theorem starts_of_begins {bytes : Bytes} (hne : bytes ≠ []) (h : Begins bytes) : starts bytes = [0] := by
  obtain ⟨c, hc⟩ := h
  rw [List.prefix_iff_eq_take.mp hc, starts_take, starts_encodeChar,
    List.filter_cons_of_pos (by simpa using List.length_pos_iff.mpr hne), List.filter_nil]

/-! ## Characters that could still be -/

/-- Inside a character the next byte is one of those that continue characters, and there is one. -/
def State.Passable : State → Prop
  | between => True
  | inside _ low high _ => 0x80 ≤ low ∧ low ≤ high ∧ high ≤ 0xBF

theorem lead_passable (b : Nat) : (lead b).2.Passable := by
  unfold lead
  repeat' split
  all_goals simp only [State.Passable]
  all_goals omega

theorem exists_completion {bits low high further : Nat} (h : (State.inside bits low high further).Passable) :
    ∃ more c, unitsFrom (.inside bits low high further) more = [some c] := by
  induction further generalizing bits low high with
  | zero =>
    obtain ⟨hlow, hle, hhigh⟩ := h
    exact ⟨_, _, unitsFrom_last bits low high (low - 0x80) (by omega) (by omega) (by omega) []⟩
  | succ further ih =>
    obtain ⟨hlow, hle, hhigh⟩ := h
    have hnext : (State.inside (bits * 64 + (low - 0x80)) 0x80 0xBF further).Passable := by simp [State.Passable]
    obtain ⟨more, c, hmore⟩ := ih hnext
    refine ⟨UInt8.ofNat (0x80 + (low - 0x80)) :: more, c, ?_⟩
    rw [unitsFrom_inside _ _ _ _ _ (by omega) (by omega) (by omega), hmore]

/-- Continuing bytes leave a character that is whole or can be. -/
theorem exists_completion_append {bits low high further n : Nat} {bytes : Bytes}
    (hs : (State.inside bits low high further).Passable)
    (hbytes : startsFrom (.inside bits low high further) n bytes = []) :
    ∃ more c, unitsFrom (.inside bits low high further) (bytes ++ more) = [some c] := by
  induction bytes generalizing bits low high further n with
  | nil => exact exists_completion hs
  | cons b bytes ih =>
    rw [startsFrom] at hbytes
    split at hbytes
    next hcontinues =>
      have hrange : low ≤ b.toNat ∧ b.toNat ≤ high := by simpa [State.continues] using hcontinues
      cases further with
      | zero =>
        rw [step, if_pos hrange] at hbytes
        cases bytes with
        | nil =>
          refine ⟨[], Char.ofNat (bits * 64 + (b.toNat - 0x80)), ?_⟩
          rw [List.append_nil, unitsFrom_cons, step, if_pos hrange]
          rfl
        | cons b' bytes => cases hbytes
      | succ further =>
        rw [step, if_pos hrange] at hbytes
        obtain ⟨more, c, hmore⟩ := ih (by simp [State.Passable]) hbytes
        refine ⟨more, c, ?_⟩
        rw [List.cons_append, unitsFrom_cons, step, if_pos hrange]
        exact hmore
    next => cases hbytes

/-- Bytes of one unit are one byte, or a character begins with them. -/
theorem begins_of_starts {bytes : Bytes} (h : starts bytes = [0]) : bytes.length = 1 ∨ Begins bytes := by
  cases bytes with
  | nil => cases h
  | cons b rest =>
    rw [starts_cons, List.cons.injEq, and_iff_right rfl] at h
    have hlength := length_lead b.toNat
    have hs := lead_passable b.toNat
    cases hlead : (lead b.toNat).2 with
    | between =>
      rw [hlead] at h
      cases rest with
      | nil => exact .inl rfl
      | cons b' rest => cases h
    | inside bits low high further =>
      rw [hlead] at h hlength hs
      obtain ⟨more, c, hmore⟩ := exists_completion_append hs h
      have hnil : (lead b.toNat).1 = [] := List.length_eq_zero_iff.mp (Nat.succ.inj hlength)
      have hunits : units (b :: rest ++ more) = [some c] := by
        rw [List.cons_append, units, unitsFrom_cons, step, hnil, hlead, hmore]
        rfl
      exact .inr ⟨c, more, eq_encodeChar_of_units hunits⟩

/-! ## The cut that decoding makes -/

/-- From `s` on, the unit that has been begun goes on over some bytes, and the others are decoded on their own. -/
theorem exists_continued (s : State) (bytes : Bytes) :
    ∃ more rest, bytes = more ++ rest ∧ unitsFrom s bytes = unitsFrom s more ++ units rest ∧
      ∀ n, startsFrom s n more = [] ∧ startsFrom s n bytes = startsFrom .between (n + more.length) rest := by
  induction bytes generalizing s with
  | nil => exact ⟨[], [], rfl, (List.append_nil _).symm, fun n => ⟨rfl, rfl⟩⟩
  | cons b bytes ih =>
    cases hcontinues : s.continues b.toNat with
    | true =>
      obtain ⟨more, rest, hbytes, hunits, hstarts⟩ := ih (step s b.toNat).2
      refine ⟨b :: more, rest, by rw [hbytes, List.cons_append], ?_, fun n => ?_⟩
      · rw [unitsFrom_cons, unitsFrom_cons, hunits, List.append_assoc]
      · have hshift : n + (more.length + 1) = n + 1 + more.length := by omega
        rw [startsFrom, startsFrom, hcontinues, if_pos rfl, if_pos rfl, List.length_cons, hshift]
        exact hstarts (n + 1)
    | false =>
      refine ⟨[], b :: bytes, rfl, ?_, fun n => ⟨rfl, ?_⟩⟩
      · rw [unitsFrom_of_not_continues hcontinues, unitsFrom_nil]
        rfl
      · rw [startsFrom, startsFrom, hcontinues, step_of_not_continues hcontinues]
        rfl

/-- No character goes on where a unit begins. -/
theorem length_le_of_begins {bytes rest longer : Bytes} (hne : bytes ≠ [])
    (hnext : starts (bytes ++ rest) = 0 :: startsFrom .between bytes.length rest) (hbegins : Begins longer)
    (hlonger : longer <+: bytes ++ rest) : longer.length ≤ bytes.length := by
  by_contra hlt
  have hlongerNe : longer ≠ [] := by
    rintro rfl
    exact hlt (Nat.zero_le _)
  cases rest with
  | nil =>
    rw [List.append_nil] at hlonger
    exact hlt hlonger.length_le
  | cons b rest =>
    have hmem : bytes.length ∈ starts longer := by
      rw [List.prefix_iff_eq_take.mp hlonger, starts_take, List.mem_filter, hnext]
      exact ⟨by simp [startsFrom, State.continues], by simpa using hlt⟩
    rw [starts_of_begins hlongerNe hbegins, List.mem_singleton] at hmem
    exact hne (List.length_eq_zero_iff.mp hmem)

/-- Bytes of one unit before the beginning of the next are the first part. -/
theorem exists_front {bytes rest : Bytes} (hstarts : starts bytes = [0])
    (hnext : starts (bytes ++ rest) = 0 :: startsFrom .between bytes.length rest)
    (hunits : units (bytes ++ rest) = units bytes ++ units rest) :
    ∃ u, units bytes = [u] ∧ Front rest ⟨bytes, u⟩ := by
  have hne : bytes ≠ [] := by
    rintro rfl
    cases hstarts
  have hlength : (units bytes).length = 1 := by
    rw [units, length_unitsFrom .between 0, ← starts, hstarts]
    rfl
  obtain ⟨u, hu⟩ := List.length_eq_one_iff.mp hlength
  refine ⟨u, hu, ?_⟩
  cases u with
  | some c =>
    rw [eq_encodeChar_of_units hu]
    exact .character c
  | none =>
    refine .malformed hne ?_ (begins_of_starts hstarts) fun longer => length_le_of_begins hne hnext
    rintro c ⟨others, hothers⟩
    rw [← hothers, units_encodeChar_append, hu] at hunits
    cases hunits

/-- Decoding cuts bytes into their parts. -/
theorem exists_parted (bytes : Bytes) :
    ∃ parts, Parted bytes parts ∧ units bytes = parts.map Part.unit ∧
      ∀ n, startsFrom .between n bytes = beginnings n parts := by
  induction hn : bytes.length using Nat.strongRecOn generalizing bytes with
  | ind n ih =>
    cases bytes with
    | nil => exact ⟨[], .nil, rfl, fun n => rfl⟩
    | cons b bytes =>
      obtain ⟨more, rest, rfl, hunits, hstarts⟩ := exists_continued (lead b.toNat).2 bytes
      have hsplit : units (b :: more ++ rest) = units (b :: more) ++ units rest := by
        rw [List.cons_append, units, units, unitsFrom_cons, unitsFrom_cons, List.append_assoc]
        exact congrArg _ hunits
      have hnext (n : Nat) : startsFrom .between n (b :: more ++ rest) =
          n :: startsFrom .between (n + (b :: more).length) rest := by
        have hshift : n + (more.length + 1) = n + 1 + more.length := by omega
        rw [List.length_cons, hshift, ← (hstarts (n + 1)).2]
        rfl
      have hone : starts (b :: more) = [0] := by rw [starts_cons, (hstarts 1).1]
      have hthen : starts (b :: more ++ rest) = 0 :: startsFrom .between (b :: more).length rest := by
        rw [starts, hnext, Nat.zero_add]
      obtain ⟨u, hu, hfront⟩ := exists_front hone hthen hsplit
      have hshorter : rest.length < n := by
        rw [← hn, List.length_cons, List.length_append]
        omega
      obtain ⟨parts, hparts, hrest, hbeginnings⟩ := ih rest.length hshorter rest rfl
      refine ⟨⟨b :: more, u⟩ :: parts, .cons hfront hparts, ?_, fun n => ?_⟩
      · rw [← List.cons_append, hsplit, hu, hrest]
        rfl
      · rw [← List.cons_append, hnext, hbeginnings]
        rfl

end Utf8

/-! ## Counting parts -/

theorem countP_lt_succ (l : List Nat) (k : Nat) : l.countP (· < k + 1) = l.countP (· < k) + l.count k := by
  induction l with
  | nil => rfl
  | cons p l ih =>
    rw [List.countP_cons, List.countP_cons, List.count_cons, ih]
    simp only [decide_eq_true_eq, beq_iff_eq]
    split_ifs <;> omega

/-- No two units begin at one byte. -/
theorem charOffset_succ (line : Bytes) (k : Nat) :
    charOffset line (k + 1) = charOffset line k ∨ charOffset line (k + 1) = charOffset line k + 1 := by
  have hnodup : (Utf8.starts line).Nodup := (Utf8.pairwise_startsFrom .between 0 line).imp Nat.ne_of_lt
  have hcount : (Utf8.starts line).count k ≤ 1 := List.nodup_iff_count_le_one.mp hnodup k
  rw [charOffset_eq_countP, charOffset_eq_countP, countP_lt_succ]
  omega

theorem charOffset_le_length (line : Bytes) (k : Nat) : charOffset line k ≤ (Utf8.lossy line).length := by
  rw [charOffset_eq_countP, ← Utf8.length_starts]
  exact List.countP_le_length

/-- **The characters before a byte are the parts that begin before it.** A line has one way to be cut into the bytes of
characters and malformed parts that are as long as they can be, and is shown with one character for each. Of the parts of
the whole line those count that begin before the byte, or before the end of the line, whatever stands behind it. So the
count never falls, grows by one at most for each byte, and is no more than the characters of the line. -/
theorem charOffset_counts_parts (line : Bytes) :
    ∃ parts, (∀ other, Utf8.Parted line other ↔ other = parts) ∧ Utf8.lossy line = parts.map Utf8.Part.char ∧
      (∀ k, charOffset line k = (Utf8.beginnings 0 parts).countP (· < min k line.length)) ∧
      (∀ j k, j ≤ k → charOffset line j ≤ charOffset line k) ∧
      (∀ k, charOffset line (k + 1) = charOffset line k ∨ charOffset line (k + 1) = charOffset line k + 1) ∧
      (∀ k (other : Bytes), other.take k = line.take k → charOffset other k = charOffset line k) ∧
      ∀ k, charOffset line k ≤ (Utf8.lossy line).length := by
  obtain ⟨parts, hparts, hunits, hstarts⟩ := Utf8.exists_parted line
  refine ⟨parts, fun other => ⟨fun hother => hother.unique hparts, fun hother => hother ▸ hparts⟩, ?_, fun k => ?_,
    fun j k => charOffset_mono line, charOffset_succ line, fun k other hother => ?_, charOffset_le_length line⟩
  · rw [Utf8.lossy, hunits, List.map_map]
    rfl
  · rw [← charOffset_min, charOffset_eq_countP, Utf8.starts, hstarts]
  · rw [charOffset, charOffset, hother]

/-- The first two bytes of `€` are one malformed part, and a byte of no character is another. -/
example : (List.range 5).map (charOffset [0xE2, 0x82, 0x61, 0xFF]) = [0, 1, 1, 2, 3] := by decide

/-- The first two bytes of `€`, with an `a` behind them and with the third. -/
theorem charOffset_counts_parts_euro :
    let line : Bytes := [0xE2, 0x82, 0x61, 0xFF]
    let euro : Bytes := [0xE2, 0x82, 0xAC]
    (1 ≤ 3 ∧ charOffset line 1 ≤ charOffset line 3) ∧
      euro.take 2 = line.take 2 ∧ charOffset euro 2 = charOffset line 2 := by
  intro line euro
  obtain ⟨-, -, -, -, hmono, -, hlocal, -⟩ := charOffset_counts_parts line
  exact ⟨⟨by decide, hmono 1 3 (by decide)⟩, rfl, hlocal 2 euro rfl⟩

end Traceback
