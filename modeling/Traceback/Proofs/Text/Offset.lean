import Traceback.Proofs.Text.Utf8
import Traceback.Text.Offset

/-! # Offsets of a text in bytes and in characters

* `byteOffset_le`, `byteOffset_mono`, `byteOffset_lt_iff`: later characters begin at later bytes.
* `charOffset_byteOffset`: before the byte at which a character begins stand the characters before it.
-/

namespace Traceback
set_option autoImplicit false

namespace Utf8

theorem encode_append (s t : Text) : encode (s ++ t) = encode s ++ encode t := List.flatMap_append

theorem length_encode_of_prefix {s t : Text} (h : s <+: t) : (encode s).length ≤ (encode t).length := by
  obtain ⟨rest, rfl⟩ := h
  rw [encode_append, List.length_append]
  exact Nat.le_add_right ..

theorem encode_ne_nil {t : Text} (h : t ≠ []) : encode t ≠ [] := by
  intro hnil
  have hback := lossy_encode t
  rw [hnil] at hback
  exact h hback.symm

end Utf8

variable (t : Text) (i j : Nat)

/-! ## From characters to bytes -/

theorem byteOffset_le : byteOffset t i ≤ (Utf8.encode t).length :=
  Utf8.length_encode_of_prefix (List.take_prefix i t)

variable {i j} in
theorem byteOffset_mono (h : i ≤ j) : byteOffset t i ≤ byteOffset t j :=
  Utf8.length_encode_of_prefix (List.take_prefix_take_left h)

/-- The bytes of a text up to where a character begins are those of the characters before it. -/
theorem take_byteOffset : (Utf8.encode t).take (byteOffset t i) = Utf8.encode (t.take i) := by
  have hsplit : Utf8.encode t = Utf8.encode (t.take i) ++ Utf8.encode (t.drop i) := by
    rw [← Utf8.encode_append, List.take_append_drop]
  rw [hsplit, byteOffset, List.take_left]

variable {i j} in
/-- Of two characters the second begins later, unless the text ends before both. -/
theorem byteOffset_lt_iff (h : i < j) : byteOffset t i < byteOffset t j ↔ i < t.length := by
  have hbegins : t.take i <+: t.take j := List.take_prefix_take_left (Nat.le_of_lt h)
  obtain ⟨between, hbetween⟩ := hbegins
  have hlength : min i t.length + between.length = min j t.length := by
    rw [← List.length_take, ← List.length_take, ← hbetween, List.length_append]
  have hbytes : byteOffset t j = byteOffset t i + (Utf8.encode between).length := by
    rw [byteOffset, ← hbetween, Utf8.encode_append, List.length_append]
    rfl
  rw [hbytes]
  constructor
  · intro hlt
    refine Nat.lt_of_not_le fun hle => ?_
    have hnil : between = [] := List.length_eq_zero_iff.mp (by omega)
    rw [hnil] at hlt
    exact Nat.lt_irrefl _ hlt
  · intro hlt
    have hne : between ≠ [] := List.length_pos_iff.mp (by omega)
    exact Nat.lt_add_of_pos_right (List.length_pos_iff.mpr (Utf8.encode_ne_nil hne))

/-! ## And back -/

theorem charOffset_byteOffset : charOffset (Utf8.encode t) (byteOffset t i) = min i t.length := by
  rw [charOffset, take_byteOffset, Utf8.lossy_encode, List.length_take]

end Traceback
