import Mathlib.Algebra.Group.Nat.Defs
import Traceback.Proofs.Text.Utf8
import Traceback.Store.Codec

/-! # Codecs that read back what they write

* `Codec.Delimits c fits`: `c` reads every value with `fits` back from the front of any bytes, and leaves
  what follows it.
* One lemma for each way to build a codec; sizes are counted in 64 bits, so texts and lists must be shorter.
-/

namespace Traceback.Codec
set_option autoImplicit false

variable {α β : Type}

def Delimits (c : Codec α) (fits : α → Prop) : Prop :=
  ∀ a, fits a → ∀ rest, c.read (c.write a ++ rest) = .ok (a, rest)

/-- A size that 64 bits can count. -/
def countable (n : Nat) : Prop := n < 2 ^ 64

instance (n : Nat) : Decidable (countable n) := inferInstanceAs (Decidable (n < 2 ^ 64))

/-! ## Numbers -/

theorem ofNat_lt_ofNat (m n : Nat) (hm : m < 256) (hn : n < 256) : UInt8.ofNat m < UInt8.ofNat n ↔ m < n := by
  rw [UInt8.lt_iff_toNat_lt, Utf8.toNat_ofNat m hm, Utf8.toNat_ofNat n hn]

theorem readNat_writeNat (places n : Nat) (hn : n < 2 * 128 ^ places) (rest : Bytes) :
    readNat (places + 1) (writeNat n ++ rest) = .ok (n, rest) := by
  induction places generalizing n with
  | zero =>
    have hlt : UInt8.ofNat n < 128 := (ofNat_lt_ofNat n 128 (by omega) (by omega)).mpr (by omega)
    have hle : ¬ 1 < UInt8.ofNat n := fun h => by
      have := (ofNat_lt_ofNat 1 n (by omega) (by omega)).mp h
      omega
    rw [writeNat, if_pos (by omega), List.singleton_append, readNat, if_pos hlt, if_neg (fun h => hle h.2),
      Utf8.toNat_ofNat n (by omega)]
  | succ places ih =>
    by_cases h : n < 128
    · have hlt : UInt8.ofNat n < 128 := (ofNat_lt_ofNat n 128 (by omega) (by omega)).mpr h
      rw [writeNat, if_pos h, List.singleton_append, readNat, if_pos hlt, if_neg (by omega),
        Utf8.toNat_ofNat n (by omega)]
    · have hge : ¬ UInt8.ofNat (128 + n % 128) < 128 := fun hlt => by
        have := (ofNat_lt_ofNat _ 128 (by omega) (by omega)).mp hlt
        omega
      have hhigh : n / 128 < 2 * 128 ^ places := by
        rw [Nat.pow_succ] at hn
        omega
      have e : 128 + n % 128 - 128 + 128 * (n / 128) = n := by omega
      rw [writeNat, if_neg h, List.cons_append, readNat, if_neg hge, ih _ hhigh, Utf8.toNat_ofNat _ (by omega)]
      exact congrArg (fun k => Except.ok (k, rest)) e

theorem nat_delimits : nat.Delimits countable := by
  intro n hn rest
  exact readNat_writeNat 9 n hn rest

/-! ## Structures -/

theorem iso_delimits {c : Codec α} {fits : α → Prop} (hc : c.Delimits fits) (into : α → β) (out : β → α)
    (hinv : ∀ b, into (out b) = b) : (c.iso into out).Delimits fun b => fits (out b) := by
  intro b hb rest
  simp only [iso]
  rw [hc _ hb]
  exact congrArg (fun x => Except.ok (x, rest)) (hinv b)

theorem pair_delimits {c : Codec α} {d : Codec β} {fits : α → Prop} {fits' : β → Prop} (hc : c.Delimits fits)
    (hd : d.Delimits fits') : (c.pair d).Delimits fun p => fits p.1 ∧ fits' p.2 := by
  intro p hp rest
  simp only [pair]
  rw [List.append_assoc, hc _ hp.1]
  dsimp only
  rw [hd _ hp.2]

theorem number_delimits : number.Delimits fun _ => True := by
  have h := iso_delimits nat_delimits UInt64.ofNat UInt64.toNat fun n => UInt64.ofNat_toNat
  exact fun n _ => h n n.toNat_lt

/-! ## Tags -/

theorem read_tag (fault : CodecFault) (b : Bool) (rest : Bytes) :
    (tag fault).read ((tag fault).write b ++ rest) = .ok (b, rest) := by
  cases b <;> rfl

theorem bool_delimits : bool.Delimits fun _ => True := fun b _ rest => read_tag .badBool b rest

theorem option_delimits {c : Codec α} {fits : α → Prop} (hc : c.Delimits fits) :
    c.option.Delimits fun o => ∀ a ∈ o, fits a := by
  intro o ho rest
  cases o with
  | none => rfl
  | some a =>
    simp only [option]
    rw [List.append_assoc, read_tag]
    dsimp only
    rw [hc a (ho a rfl)]

/-! ## Counts -/

theorem text_delimits : text.Delimits fun t => countable (Utf8.encode t).length := by
  intro t ht rest
  have hlong : ¬ (Utf8.encode t ++ rest).length < (Utf8.encode t).length := by
    rw [List.length_append]
    omega
  simp only [text]
  rw [List.append_assoc, nat_delimits _ ht]
  dsimp only
  rw [if_neg hlong, List.take_left, Utf8.decode?_encode, List.drop_left]

theorem readMany_flatMap {c : Codec α} {fits : α → Prop} (hc : c.Delimits fits) (l : List α)
    (hl : ∀ a ∈ l, fits a) (rest : Bytes) :
    c.readMany l.length (l.flatMap c.write ++ rest) = .ok (l, rest) := by
  induction l with
  | nil => rfl
  | cons a l ih =>
    rw [List.length_cons, List.flatMap_cons, List.append_assoc, readMany, hc a (hl a (List.mem_cons_self ..))]
    dsimp only
    rw [ih fun b hb => hl b (List.mem_cons_of_mem a hb)]

theorem list_delimits {c : Codec α} {fits : α → Prop} (hc : c.Delimits fits) :
    c.list.Delimits fun l => countable l.length ∧ ∀ a ∈ l, fits a := by
  intro l hl rest
  simp only [list]
  rw [List.append_assoc, nat_delimits _ hl.1]
  exact readMany_flatMap hc l hl.2 rest

end Traceback.Codec
