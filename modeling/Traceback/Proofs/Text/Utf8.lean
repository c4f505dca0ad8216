import Traceback.Text.Utf8

/-! # Reading back what was encoded

The machine reads the bytes of a character as that character, whatever follows them.

* `unitsFrom_encodeChar`: one character in front of any bytes.
* `decode?_encode`: a whole text.
-/

namespace Traceback.Utf8
set_option autoImplicit false

/-! ## First bytes -/

theorem lead_one (b : Nat) (hb : b < 0x80) : lead b = ([some (Char.ofNat b)], .between) := by
  unfold lead
  rw [if_pos hb]

theorem lead_two (h : Nat) (h2 : 2 ≤ h) (h32 : h < 32) : lead (0xC0 + h) = ([], .inside h 0x80 0xBF 0) := by
  have e : 0xC0 + h - 0xC0 = h := Nat.add_sub_cancel_left ..
  unfold lead
  rw [if_neg (by omega), if_neg (by omega), if_pos (by omega), e]

theorem lead_three : ∀ h < 16, lead (0xE0 + h) =
    ([], .inside h (if h = 0 then 0xA0 else 0x80) (if h = 13 then 0x9F else 0xBF) 1) := by
  decide

theorem lead_four : ∀ h < 5, lead (0xF0 + h) =
    ([], .inside h (if h = 0 then 0x90 else 0x80) (if h = 4 then 0x8F else 0xBF) 2) := by
  decide

/-! ## One byte more -/

theorem unitsFrom_cons (s : State) (b : UInt8) (rest : Bytes) :
    unitsFrom s (b :: rest) = (step s b.toNat).1 ++ unitsFrom (step s b.toNat).2 rest := by
  cases s <;> rfl

theorem toNat_ofNat (n : Nat) (hn : n < 256) : (UInt8.ofNat n).toNat = n := by
  rw [UInt8.toNat_ofNat']
  exact Nat.mod_eq_of_lt hn

theorem unitsFrom_lead (b : Nat) (hb : b < 256) (rest : Bytes) :
    unitsFrom .between (UInt8.ofNat b :: rest) = (lead b).1 ++ unitsFrom (lead b).2 rest := by
  rw [unitsFrom_cons, toNat_ofNat b hb]
  rfl

/-- The six bits `k` that a continuing byte adds. -/
theorem unitsFrom_inside (bits low high further k : Nat) (hk : k < 64) (hlow : low ≤ 0x80 + k)
    (hhigh : 0x80 + k ≤ high) (rest : Bytes) :
    unitsFrom (.inside bits low high (further + 1)) (UInt8.ofNat (0x80 + k) :: rest) =
      unitsFrom (.inside (bits * 64 + k) 0x80 0xBF further) rest := by
  have e : 0x80 + k - 0x80 = k := Nat.add_sub_cancel_left ..
  rw [unitsFrom_cons, toNat_ofNat _ (by omega), step, if_pos ⟨hlow, hhigh⟩, e]
  rfl

theorem unitsFrom_last (bits low high k : Nat) (hk : k < 64) (hlow : low ≤ 0x80 + k) (hhigh : 0x80 + k ≤ high)
    (rest : Bytes) :
    unitsFrom (.inside bits low high 0) (UInt8.ofNat (0x80 + k) :: rest) =
      some (Char.ofNat (bits * 64 + k)) :: unitsFrom .between rest := by
  have e : 0x80 + k - 0x80 = k := Nat.add_sub_cancel_left ..
  rw [unitsFrom_cons, toNat_ofNat _ (by omega), step, if_pos ⟨hlow, hhigh⟩, e]
  rfl

/-! ## Characters -/

theorem unitsFrom_encodeChar (c : Char) (rest : Bytes) :
    unitsFrom .between (encodeChar c ++ rest) = some c :: unitsFrom .between rest := by
  have hvalid : c.toNat < 0xD800 ∨ 0xDFFF < c.toNat ∧ c.toNat < 0x110000 := c.valid
  have hc : Char.ofNat c.toNat = c := Char.ofNat_toNat c
  rw [encodeChar]
  generalize c.toNat = n at hvalid hc
  by_cases h1 : n < 0x80
  · rw [if_pos h1, List.singleton_append, unitsFrom_lead n (by omega), lead_one n h1, hc]
    rfl
  rw [if_neg h1]
  by_cases h2 : n < 0x800
  · have e : n / 64 * 64 + n % 64 = n := by omega
    rw [if_pos h2, List.cons_append, unitsFrom_lead _ (by omega), lead_two _ (by omega) (by omega),
      List.nil_append, List.singleton_append, unitsFrom_last _ _ _ _ (by omega) (by omega) (by omega), e, hc]
  rw [if_neg h2]
  by_cases h3 : n < 0x10000
  · have e : (n / 4096 * 64 + n / 64 % 64) * 64 + n % 64 = n := by omega
    have hlow : (if n / 4096 = 0 then 0xA0 else 0x80) ≤ 0x80 + n / 64 % 64 := by split <;> omega
    have hhigh : 0x80 + n / 64 % 64 ≤ if n / 4096 = 13 then 0x9F else 0xBF := by split <;> omega
    rw [if_pos h3, List.cons_append, unitsFrom_lead _ (by omega), lead_three _ (by omega), List.nil_append,
      List.cons_append, unitsFrom_inside _ _ _ _ _ (by omega) hlow hhigh, List.singleton_append,
      unitsFrom_last _ _ _ _ (by omega) (by omega) (by omega), e, hc]
  · have e : ((n / 262144 * 64 + n / 4096 % 64) * 64 + n / 64 % 64) * 64 + n % 64 = n := by omega
    have hlow : (if n / 262144 = 0 then 0x90 else 0x80) ≤ 0x80 + n / 4096 % 64 := by split <;> omega
    have hhigh : 0x80 + n / 4096 % 64 ≤ if n / 262144 = 4 then 0x8F else 0xBF := by split <;> omega
    rw [if_neg h3, List.cons_append, unitsFrom_lead _ (by omega), lead_four _ (by omega), List.nil_append,
      List.cons_append, unitsFrom_inside _ _ _ _ _ (by omega) hlow hhigh, List.cons_append,
      unitsFrom_inside _ _ _ _ _ (by omega) (by omega) (by omega), List.singleton_append,
      unitsFrom_last _ _ _ _ (by omega) (by omega) (by omega), e, hc]

/-- A byte that is a character on its own is no part of another one. -/
theorem toNat_of_mem_encodeChar {c : Char} {b : UInt8} (hb : b ∈ encodeChar c) (hsmall : b.toNat < 0x80) :
    c.toNat = b.toNat := by
  have hvalid : c.toNat < 0xD800 ∨ 0xDFFF < c.toNat ∧ c.toNat < 0x110000 := c.valid
  rw [encodeChar] at hb
  by_cases h1 : c.toNat < 0x80
  · rw [if_pos h1, List.mem_singleton] at hb
    rw [hb, toNat_ofNat _ (by omega)]
  rw [if_neg h1] at hb
  -- All other characters have bytes from 0x80 on only.
  have hwide (n : Nat) (hn : n < 256) (hn' : 0x80 ≤ n) : b ≠ UInt8.ofNat n := by
    rintro rfl
    rw [toNat_ofNat n hn] at hsmall
    omega
  exfalso
  by_cases h2 : c.toNat < 0x800
  · rw [if_pos h2, List.mem_cons, List.mem_singleton] at hb
    rcases hb with hb | hb <;> exact hwide _ (by omega) (by omega) hb
  rw [if_neg h2] at hb
  by_cases h3 : c.toNat < 0x10000
  · rw [if_pos h3, List.mem_cons, List.mem_cons, List.mem_singleton] at hb
    rcases hb with hb | hb | hb <;> exact hwide _ (by omega) (by omega) hb
  · rw [if_neg h3, List.mem_cons, List.mem_cons, List.mem_cons, List.mem_singleton] at hb
    rcases hb with hb | hb | hb | hb <;> exact hwide _ (by omega) (by omega) hb

/-! ## Texts -/

theorem units_encode (t : Text) : units (encode t) = t.map some := by
  induction t with
  | nil => rfl
  | cons c t ih =>
    rw [units, encode, List.flatMap_cons, unitsFrom_encodeChar, List.map_cons]
    exact congrArg (some c :: ·) ih

theorem lossy_encode (t : Text) : lossy (encode t) = t := by
  rw [lossy, units_encode, List.map_map]
  exact List.map_id t

theorem decode?_encode (t : Text) : decode? (encode t) = some t := by
  have hall : (units (encode t)).all Option.isSome = true := by
    rw [units_encode, List.all_map]
    exact List.all_eq_true.mpr fun _ _ => rfl
  rw [decode?, if_pos hall, lossy_encode]

end Traceback.Utf8
