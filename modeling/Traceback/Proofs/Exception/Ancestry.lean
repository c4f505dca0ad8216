import Mathlib.Data.Set.Basic
import Mathlib.Logic.Relation
import Traceback.Exception.Category

/-! # Ancestry

What is known of a class are the built-in kinds that its names stand for, and with each kind all that it extends.

* `Kind.Under`: that a kind is another one or extends it, directly or not; `Kind.isA_iff` decides it.
* `Category.ancestry`: all kinds that a class is known to lie under, the upward closure of the kinds it names.
* `Category.isA_iff`: a handler catches the exceptions of a class when its kind is in the ancestry.
-/

namespace Traceback
set_option autoImplicit false

namespace Kind

theorem mem_all (k : Kind) : k ∈ all := by cases k <;> decide

/-! ## Names -/

theorem ofName?_name (k : Kind) : ofName? k.name = some k := by
  have hall : ∀ k ∈ all, ofName? k.name = some k := by decide +kernel
  exact hall k (mem_all k)

/-- A name stands for the one kind that is called so. -/
theorem ofName?_eq_some_iff {t : Text} {k : Kind} : ofName? t = some k ↔ k.name = t := by
  constructor
  · intro h
    have hname := List.find?_some (p := fun k : Kind => decide (k.name = t)) h
    exact of_decide_eq_true hname
  · rintro rfl
    exact ofName?_name k

theorem name_injective : Function.Injective name := by
  intro k k' h
  have hname : ofName? k'.name = some k := ofName?_eq_some_iff.mpr h
  exact Option.some.inj (hname.symm.trans (ofName?_name k'))

/-! ## The tree -/

/-- `k` is `above` or extends it, directly or not. -/
def Under : Kind → Kind → Prop := Relation.ReflTransGen fun k p => k.parent? = some p

theorem under_of_mem_climb {n : Nat} {k above : Kind} (h : above ∈ climb n k) : k.Under above := by
  induction n generalizing k with
  | zero =>
    obtain rfl := List.mem_singleton.mp h
    exact Relation.ReflTransGen.refl
  | succ n ih =>
    rw [climb] at h
    split at h
    next =>
      obtain rfl := List.mem_singleton.mp h
      exact Relation.ReflTransGen.refl
    next p hp =>
      rcases List.mem_cons.mp h with rfl | h
      · exact Relation.ReflTransGen.refl
      · exact Relation.ReflTransGen.head hp (ih h)

/-- Four steps lead to the root from every kind. -/
theorem parent_mem_lineage {k a p : Kind} (ha : a ∈ k.lineage) (hp : a.parent? = some p) : p ∈ k.lineage := by
  have hall : ∀ k ∈ all, ∀ a ∈ k.lineage, ∀ p ∈ a.parent?, p ∈ k.lineage := by decide +kernel
  exact hall k (mem_all k) a ha p hp

theorem mem_lineage_iff {k above : Kind} : above ∈ k.lineage ↔ k.Under above := by
  refine ⟨under_of_mem_climb, fun h => ?_⟩
  induction h with
  | refl =>
    have hall : ∀ k ∈ all, k ∈ k.lineage := by decide +kernel
    exact hall k (mem_all k)
  | tail _ hp ih => exact parent_mem_lineage ih hp

theorem isA_iff {k handled : Kind} : k.isA handled = true ↔ k.Under handled := by
  rw [isA, List.contains_iff_mem, mem_lineage_iff]

end Kind

/-! ## Classes -/

namespace Category

/-- The name of the class and the names of what it extends. -/
def names (c : Category) : List Text := c.name :: c.bases

/-- The built-in kinds that the class is known to lie under: those that it names, and all that they extend. -/
def ancestry (c : Category) : Set Kind := {above | ∃ k : Kind, k.name ∈ c.names ∧ k.Under above}

theorem mem_kinds_iff {c : Category} {k : Kind} : k ∈ c.kinds ↔ k.name ∈ c.names := by
  simp only [kinds, names, List.mem_filterMap, Kind.ofName?_eq_some_iff]
  constructor
  · rintro ⟨t, ht, rfl⟩
    exact ht
  · exact fun h => ⟨k.name, h, rfl⟩

theorem isA_iff {c : Category} {handled : Kind} : c.isA handled = true ↔ handled ∈ c.ancestry := by
  simp only [isA, List.any_eq_true, mem_kinds_iff, Kind.isA_iff]
  rfl

theorem mem_ancestry_of_named {c : Category} {k : Kind} (h : k.name ∈ c.names) : k ∈ c.ancestry :=
  ⟨k, h, Relation.ReflTransGen.refl⟩

theorem mem_ancestry_of_under {c : Category} {k above : Kind} (h : k ∈ c.ancestry) (habove : k.Under above) :
    above ∈ c.ancestry := by
  obtain ⟨named, hnamed, hk⟩ := h
  exact ⟨named, hnamed, hk.trans habove⟩

/-- Ancestries are compared by the kinds that are named. -/
theorem ancestry_subset {c c' : Category} (h : ∀ k : Kind, k.name ∈ c.names → k ∈ c'.ancestry) :
    c.ancestry ⊆ c'.ancestry := by
  rintro above ⟨k, hk, habove⟩
  exact mem_ancestry_of_under (h k hk) habove

theorem ancestry_eq_of_names {c c' : Category} (h : ∀ t, t ∈ c.names ↔ t ∈ c'.names) : c.ancestry = c'.ancestry :=
  Set.Subset.antisymm (ancestry_subset fun k hk => mem_ancestry_of_named ((h k.name).mp hk))
    (ancestry_subset fun k hk => mem_ancestry_of_named ((h k.name).mpr hk))

theorem mem_names_insert {name base t : Text} {front back : List Text} :
    t ∈ names ⟨name, front ++ base :: back⟩ ↔ t = base ∨ t ∈ names ⟨name, front ++ back⟩ := by
  simp only [names, List.mem_cons, List.mem_append]
  rw [or_left_comm (b := t = base), or_left_comm (b := t = base)]

/-- A base may be left out when it is no built-in kind, or one that the class lies under anyway. -/
theorem ancestry_without {name base : Text} {front back : List Text}
    (h : ∀ k : Kind, k.name = base → k ∈ ancestry ⟨name, front ++ back⟩) :
    ancestry ⟨name, front ++ base :: back⟩ = ancestry ⟨name, front ++ back⟩ := by
  refine Set.Subset.antisymm (ancestry_subset fun k hk => ?_) (ancestry_subset fun k hk => ?_)
  · rcases mem_names_insert.mp hk with hbase | hk
    · exact h k hbase
    · exact mem_ancestry_of_named hk
  · exact mem_ancestry_of_named (mem_names_insert.mpr (Or.inr hk))

/-- The ancestors of a kind add nothing to it. -/
theorem ancestry_of_kind {k : Kind} {bases : List Text} (h : ∀ t ∈ bases, ∃ above, k.Under above ∧ above.name = t) :
    ancestry ⟨k.name, bases⟩ = (ofKind k).ancestry := by
  refine Set.Subset.antisymm (ancestry_subset fun named hnamed => ?_) (ancestry_subset fun named hnamed => ?_)
  · have hself : k ∈ (ofKind k).ancestry := mem_ancestry_of_named (List.mem_singleton_self _)
    rcases List.mem_cons.mp hnamed with heq | hnamed
    · obtain rfl := Kind.name_injective heq
      exact hself
    · obtain ⟨above, habove, heq⟩ := h _ hnamed
      obtain rfl := Kind.name_injective heq
      exact mem_ancestry_of_under hself habove
  · refine mem_ancestry_of_named (List.mem_cons.mpr (Or.inl ?_))
    exact List.mem_singleton.mp hnamed

theorem ancestry_eq_empty {c : Category} (h : ∀ t ∈ c.names, ∀ k : Kind, k.name ≠ t) : c.ancestry = ∅ := by
  refine Set.eq_empty_iff_forall_notMem.mpr ?_
  rintro above ⟨k, hk, -⟩
  exact h _ hk k rfl

end Category
end Traceback
