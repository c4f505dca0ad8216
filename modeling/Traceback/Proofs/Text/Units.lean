import Traceback.Proofs.Text.Utf8
import Traceback.Source
import Traceback.Text.Offset

/-! # Where units begin

Each unit of decoding is read from bytes of its own, which stand one after the other.

* `Utf8.starts`: the bytes at which the units begin; `units_split` says that they do.
* `charOffset_eq_countP`: the characters before a byte are the units that begin before it.
* `Utf8.lossy_split`: the text before and after a unit is that of the bytes before and after its beginning.
* `Utf8.lt_countP_starts`: the units that begin before a byte are the first ones.
* `Utf8.lineFeed_notMem_lossy`: decoding makes no line feed where there is none.
-/

namespace Traceback
set_option autoImplicit false

namespace Utf8

/-! ## Positions -/

/-- Where units begin from byte `n` on, before which decoding stands at `s`: at every byte that does not
continue a character. -/
def startsFrom : State → (n : Nat) → Bytes → List Nat
  | _, _, [] => []
  | s, n, b :: rest =>
    if s.continues b.toNat then startsFrom (step s b.toNat).2 (n + 1) rest
    else n :: startsFrom (step s b.toNat).2 (n + 1) rest

/-- The bytes at which the units of `bytes` begin, in order. -/
def starts (bytes : Bytes) : List Nat := startsFrom .between 0 bytes

theorem le_of_mem_startsFrom {s : State} {n p : Nat} {bytes : Bytes} (h : p ∈ startsFrom s n bytes) : n ≤ p := by
  induction bytes generalizing s n with
  | nil => cases h
  | cons b rest ih =>
    rw [startsFrom] at h
    split at h
    · exact Nat.le_of_succ_le (ih h)
    · rcases List.mem_cons.mp h with rfl | h
      · exact Nat.le_refl _
      · exact Nat.le_of_succ_le (ih h)

theorem pairwise_startsFrom (s : State) (n : Nat) (bytes : Bytes) : (startsFrom s n bytes).Pairwise (· < ·) := by
  induction bytes generalizing s n with
  | nil => exact List.Pairwise.nil
  | cons b rest ih =>
    rw [startsFrom]
    split
    · exact ih _ _
    · exact List.pairwise_cons.mpr ⟨fun p hp => le_of_mem_startsFrom hp, ih _ _⟩

/-- The units that begin in the first bytes are known from these bytes. -/
theorem startsFrom_take (s : State) (n k : Nat) (bytes : Bytes) :
    startsFrom s n (bytes.take k) = (startsFrom s n bytes).filter (· < n + k) := by
  induction bytes generalizing s n k with
  | nil => rw [List.take_nil]; rfl
  | cons b rest ih =>
    cases k with
    | zero =>
      rw [List.take_zero, startsFrom, eq_comm, List.filter_eq_nil_iff]
      intro p hp
      have := le_of_mem_startsFrom hp
      simpa using this
    | succ k =>
      have hshift : n + 1 + k = n + (k + 1) := by omega
      rw [List.take_succ_cons, startsFrom, startsFrom, ih, hshift]
      split
      · rfl
      · rw [List.filter_cons_of_pos (by simp)]

/-! ## Bytes that begin units -/

/-- What ends when a unit begins: the malformed part of a character, if the machine stands in one. -/
def State.cut : State → List (Option Char)
  | between => []
  | inside .. => [none]

theorem unitsFrom_nil (s : State) : unitsFrom s [] = s.cut := by
  cases s <;> rfl

theorem step_of_continues {s : State} {b : Nat} (h : s.continues b = true) :
    (step s b).1.length + (step s b).2.cut.length = s.cut.length := by
  cases s with
  | between => cases h
  | inside bits low high further =>
    have hrange : low ≤ b ∧ b ≤ high := by simpa [State.continues] using h
    unfold step
    dsimp only
    rw [if_pos hrange]
    cases further <;> rfl

theorem step_of_not_continues {s : State} {b : Nat} (h : s.continues b = false) :
    step s b = (s.cut ++ (lead b).1, (lead b).2) := by
  cases s with
  | between => rfl
  | inside bits low high further =>
    have hrange : ¬ (low ≤ b ∧ b ≤ high) := by
      rw [← Bool.not_eq_true] at h
      simpa [State.continues] using h
    unfold step
    dsimp only
    rw [if_neg hrange]
    rfl

theorem unitsFrom_of_not_continues {s : State} {b : UInt8} (h : s.continues b.toNat = false) (rest : Bytes) :
    unitsFrom s (b :: rest) = s.cut ++ unitsFrom .between (b :: rest) := by
  rw [unitsFrom_cons, unitsFrom_cons, step_of_not_continues h, List.append_assoc]
  rfl

/-! ## Counting -/

theorem length_lead (b : Nat) : (lead b).1.length + (lead b).2.cut.length = 1 := by
  unfold lead
  repeat' split
  all_goals rfl

theorem length_unitsFrom (s : State) (n : Nat) (bytes : Bytes) :
    (unitsFrom s bytes).length = s.cut.length + (startsFrom s n bytes).length := by
  induction bytes generalizing s n with
  | nil => rw [unitsFrom_nil]; rfl
  | cons b rest ih =>
    rw [unitsFrom_cons, List.length_append, ih _ (n + 1), startsFrom]
    cases h : s.continues b.toNat with
    | true =>
      have hstep := step_of_continues h
      rw [if_pos rfl]
      omega
    | false =>
      have hlead := length_lead b.toNat
      rw [if_neg Bool.false_ne_true, List.length_cons, step_of_not_continues h, List.length_append]
      dsimp only
      omega

theorem length_starts (bytes : Bytes) : (starts bytes).length = (lossy bytes).length := by
  have h := length_unitsFrom .between 0 bytes
  rw [lossy, List.length_map, starts, units, h]
  exact (Nat.zero_add _).symm

/-- Bytes that are followed by the beginning of a unit are decoded on their own. -/
theorem unitsFrom_split (s : State) (n p : Nat) (bytes : Bytes) (hp : n + p ∈ startsFrom s n bytes) :
    unitsFrom s bytes = unitsFrom s (bytes.take p) ++ units (bytes.drop p) := by
  induction bytes generalizing s n p with
  | nil => cases hp
  | cons b rest ih =>
    rw [startsFrom] at hp
    cases p with
    | zero =>
      cases h : s.continues b.toNat with
      | true =>
        rw [h, if_pos rfl] at hp
        have := le_of_mem_startsFrom hp
        omega
      | false => rw [List.take_zero, List.drop_zero, unitsFrom_of_not_continues h, unitsFrom_nil]; rfl
    | succ p =>
      have hshift : n + (p + 1) = n + 1 + p := by omega
      have hlater : n + 1 + p ∈ startsFrom (step s b.toNat).2 (n + 1) rest := by
        rw [hshift] at hp
        split at hp
        · exact hp
        · rcases List.mem_cons.mp hp with he | hp
          · omega
          · exact hp
      rw [List.take_succ_cons, List.drop_succ_cons, unitsFrom_cons, unitsFrom_cons, ih _ _ _ hlater,
        List.append_assoc]

/-- The units before one that begins at `p` are decoded from the bytes before `p`, the others from the bytes
that follow. -/
theorem units_split (bytes : Bytes) (p : Nat) (hp : p ∈ starts bytes) :
    units bytes = units (bytes.take p) ++ units (bytes.drop p) :=
  unitsFrom_split .between 0 p bytes (by rw [Nat.zero_add]; exact hp)

/-! ## Units before a byte -/

theorem lt_countP_iff {l : List Nat} (hl : l.Pairwise (· < ·)) (k : Nat) {j p : Nat} (hp : l[j]? = some p) :
    j < l.countP (· < k) ↔ p < k := by
  induction l generalizing j with
  | nil => cases hp
  | cons a l ih =>
    obtain ⟨hhead, htail⟩ := List.pairwise_cons.mp hl
    rw [List.countP_cons]
    by_cases ha : a < k
    · rw [if_pos (by simpa using ha)]
      cases j with
      | zero =>
        cases hp
        exact iff_of_true (Nat.succ_pos _) ha
      | succ j => rw [Nat.succ_lt_succ_iff, ih htail hp]
    · have hnone : l.countP (· < k) = 0 := by
        rw [List.countP_eq_zero]
        intro q hq
        have := hhead q hq
        simp
        omega
      have hle : a ≤ p := by
        rcases List.mem_cons.mp (List.mem_of_getElem? hp) with rfl | hmem
        · exact Nat.le_refl _
        · exact Nat.le_of_lt (hhead p hmem)
      rw [hnone, if_neg (by simpa using ha)]
      exact iff_of_false (Nat.not_lt_zero _) (by omega)

/-- The units that begin before byte `k` are the first ones. -/
theorem lt_countP_starts (bytes : Bytes) (k : Nat) {j p : Nat} (hp : (starts bytes)[j]? = some p) :
    j < (starts bytes).countP (· < k) ↔ p < k :=
  lt_countP_iff (pairwise_startsFrom .between 0 bytes) k hp

/-- As many units begin before a unit as its index says. -/
theorem countP_starts_of_getElem? (bytes : Bytes) {j p : Nat} (hp : (starts bytes)[j]? = some p) :
    (starts bytes).countP (· < p) = j := by
  have hle : ¬ j < (starts bytes).countP (· < p) := fun h =>
    Nat.lt_irrefl p ((lt_countP_starts bytes p hp).mp h)
  have hge : ¬ (starts bytes).countP (· < p) < j := by
    intro h
    obtain ⟨hj, hget⟩ := List.getElem?_eq_some_iff.mp hp
    have hfirst : (starts bytes).countP (· < p) < (starts bytes).length := Nat.lt_trans h hj
    -- the first unit that is not counted would begin before a later one
    have hlater : (starts bytes)[(starts bytes).countP (· < p)] < (starts bytes)[j] :=
      List.pairwise_iff_getElem.mp (pairwise_startsFrom .between 0 bytes) _ j hfirst hj h
    have hself := (lt_countP_starts bytes p (List.getElem?_eq_getElem hfirst)).mpr (hget ▸ hlater)
    exact Nat.lt_irrefl _ hself
  omega

/-! ## Line feeds -/

/-- The bits that have been read, with those that must follow, make a character beyond ASCII. -/
def State.Wide : State → Prop
  | between => True
  | inside bits low _ further => 0x80 ≤ low ∧ (2 ≤ bits ∨ 0 < further ∧ 2 ≤ bits * 64 + (low - 0x80))

theorem lead_wide (b : Nat) : (lead b).2.Wide := by
  unfold lead
  repeat' split
  all_goals simp only [State.Wide]
  all_goals omega

theorem step_wide {s : State} (hs : s.Wide) (b : Nat) : (step s b).2.Wide := by
  cases h : s.continues b with
  | false =>
    rw [step_of_not_continues h]
    exact lead_wide b
  | true =>
    cases s with
    | between => cases h
    | inside bits low high further =>
      have hrange : low ≤ b ∧ b ≤ high := by simpa [State.continues] using h
      unfold step
      dsimp only
      rw [if_pos hrange]
      cases further with
      | zero => trivial
      | succ further =>
        simp only [State.Wide] at hs ⊢
        omega

theorem eq_of_ofNat_eq_lineFeed {n : Nat} (h : Char.ofNat n = '\n') : n = 10 := by
  unfold Char.ofNat at h
  by_cases hvalid : n.isValidChar
  · rw [dif_pos hvalid] at h
    exact congrArg Char.toNat h
  · rw [dif_neg hvalid] at h
    exact absurd (congrArg Char.toNat h) (by decide)

theorem eq_of_lineFeed_mem_lead {b : Nat} (h : some '\n' ∈ (lead b).1) : b = 10 := by
  unfold lead at h
  repeat' split at h
  case isTrue =>
    rw [List.mem_singleton, Option.some.injEq] at h
    exact eq_of_ofNat_eq_lineFeed h.symm
  all_goals simp at h

theorem eq_of_lineFeed_mem_step {s : State} (hs : s.Wide) {b : Nat} (h : some '\n' ∈ (step s b).1) : b = 10 := by
  cases hcontinues : s.continues b with
  | false =>
    rw [step_of_not_continues hcontinues, List.mem_append] at h
    rcases h with h | h
    · cases s <;> simp [State.cut] at h
    · exact eq_of_lineFeed_mem_lead h
  | true =>
    cases s with
    | between => cases hcontinues
    | inside bits low high further =>
      have hrange : low ≤ b ∧ b ≤ high := by simpa [State.continues] using hcontinues
      unfold step at h
      dsimp only at h
      rw [if_pos hrange] at h
      cases further with
      | succ => simp at h
      | zero =>
        rw [List.mem_singleton, Option.some.injEq] at h
        have := eq_of_ofNat_eq_lineFeed h.symm
        simp only [State.Wide] at hs
        omega

theorem lineFeed_notMem_unitsFrom {s : State} (hs : s.Wide) {bytes : Bytes} (h : lineFeed ∉ bytes) :
    some '\n' ∉ unitsFrom s bytes := by
  induction bytes generalizing s with
  | nil => cases s <;> simp [unitsFrom_nil, State.cut]
  | cons b rest ih =>
    rw [List.mem_cons, not_or] at h
    rw [unitsFrom_cons, List.mem_append, not_or]
    refine ⟨fun hmem => h.1 ?_, ih (step_wide hs _) h.2⟩
    have hb := eq_of_lineFeed_mem_step hs hmem
    exact (UInt8.toNat_inj.mp (hb.trans rfl)).symm

theorem lineFeed_notMem_lossy {bytes : Bytes} (h : lineFeed ∉ bytes) : '\n' ∉ lossy bytes := by
  intro hmem
  obtain ⟨u, hu, heq⟩ := List.mem_map.mp hmem
  cases u with
  | none => exact absurd heq (by decide)
  | some c =>
    cases heq
    exact lineFeed_notMem_unitsFrom (s := .between) trivial h hu

end Utf8

theorem charOffset_eq_countP (line : Bytes) (k : Nat) :
    charOffset line k = (Utf8.starts line).countP (· < k) := by
  rw [charOffset, ← Utf8.length_starts, Utf8.starts, Utf8.startsFrom_take, Nat.zero_add, List.countP_eq_length_filter]
  rfl

/-- Where a character begins, the text is cut before that character. -/
theorem Utf8.lossy_split (bytes : Bytes) {j p : Nat} (hp : (starts bytes)[j]? = some p) :
    lossy (bytes.take p) = (lossy bytes).take j ∧ lossy (bytes.drop p) = (lossy bytes).drop j := by
  have hsplit : lossy bytes = lossy (bytes.take p) ++ lossy (bytes.drop p) := by
    rw [lossy, units_split bytes p (List.mem_of_getElem? hp), List.map_append]
    rfl
  have hlength : (lossy (bytes.take p)).length = j := by
    have hcount : (starts bytes).countP (· < p) = j := countP_starts_of_getElem? bytes hp
    rw [← hcount, ← charOffset_eq_countP]
    rfl
  rw [hsplit, ← hlength, List.take_left, List.drop_left]
  exact ⟨rfl, rfl⟩

end Traceback
