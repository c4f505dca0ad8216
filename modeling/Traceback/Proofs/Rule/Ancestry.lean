import Traceback.Catalog
import Traceback.Proofs.Exception.Ancestry

/-! # Classes and classification

Of the class of an exception the rules ask one thing: whether it lies under the kind of a rule.

* `RuleSet.classifyBy_congr`: classes of one ancestry cannot be told apart by any rules.
* `RuleSet.classify_by_ancestry`: so it does not matter how the names of a class are written down.
-/

namespace Traceback
set_option autoImplicit false

theorem Category.isA_congr {c c' : Category} (h : c.ancestry = c'.ancestry) (handled : Kind) :
    c.isA handled = c'.isA handled := by
  rw [Bool.eq_iff_iff, isA_iff, isA_iff, h]

theorem Rule.groups?_congr {c c' : Category} (h : c.ancestry = c'.ancestry) (r : Rule) (message : Text) :
    r.groups? c message = r.groups? c' message := by
  rw [groups?, groups?, Category.isA_congr h]

namespace RuleSet

theorem classifyBy_congr {c c' : Category} (h : c.ancestry = c'.ancestry) (message : Text) (rules : List Rule) :
    classifyBy c message rules = classifyBy c' message rules := by
  induction rules with
  | nil => rfl
  | cons r rules ih => rw [classifyBy_cons, classifyBy_cons, Rule.groups?_congr h, ih]

theorem classifyBy_of_no_ancestry {c : Category} (h : c.ancestry = ∅) (message : Text) (rules : List Rule) :
    classifyBy c message rules = ⟨none, {}, message⟩ := by
  induction rules with
  | nil => rfl
  | cons r rules ih =>
    have hkind : ¬ c.isA r.kind = true := by
      rw [Category.isA_iff, h]
      exact Set.notMem_empty _
    rw [classifyBy_cons, Rule.groups?, if_neg hkind, ih]

/-- **What a rule set makes of a message depends on the class of the exception through its ancestry alone.** Hence it
does not matter in which order or how often names are listed and which of them is the name of the class, whether a base
is listed that is no built-in kind or that a listed one lies under; a class of a built-in name with any of its
ancestors is taken as that kind; and the message of a class that names no built-in kind is kept. -/
theorem classify_by_ancestry (s : RuleSet) (message : Text) :
    (∀ c c' : Category, c.ancestry = c'.ancestry → s.classify c message = s.classify c' message) ∧
    (∀ c c' : Category, (∀ t, t ∈ c.names ↔ t ∈ c'.names) → s.classify c message = s.classify c' message) ∧
    (∀ (name base : Text) (front back : List Text), (∀ k : Kind, k.name ≠ base) →
      s.classify ⟨name, front ++ base :: back⟩ message = s.classify ⟨name, front ++ back⟩ message) ∧
    (∀ (name : Text) (k above : Kind) (front back : List Text), k.name ∈ name :: (front ++ back) → k.Under above →
      s.classify ⟨name, front ++ above.name :: back⟩ message = s.classify ⟨name, front ++ back⟩ message) ∧
    (∀ (k : Kind) (bases : List Text), (∀ t ∈ bases, ∃ above, k.Under above ∧ above.name = t) →
      s.classify ⟨k.name, bases⟩ message = s.classify (.ofKind k) message) ∧
    (∀ c : Category, (∀ t ∈ c.names, ∀ k : Kind, k.name ≠ t) → s.classify c message = ⟨none, {}, message⟩) := by
  have hancestry : ∀ c c' : Category, c.ancestry = c'.ancestry → s.classify c message = s.classify c' message :=
    fun c c' h => classifyBy_congr h message s.rules
  refine ⟨hancestry, fun c c' h => ?_, fun name base front back h => ?_, fun name k above front back hk habove => ?_,
    fun k bases h => ?_, fun c h => ?_⟩
  · exact hancestry _ _ (Category.ancestry_eq_of_names h)
  · exact hancestry _ _ (Category.ancestry_without fun k hk => absurd hk (h k))
  · refine hancestry _ _ (Category.ancestry_without fun k' hk' => ?_)
    obtain rfl := Kind.name_injective hk'
    exact Category.mem_ancestry_of_under (Category.mem_ancestry_of_named hk) habove
  · exact hancestry _ _ (Category.ancestry_of_kind h)
  · exact classifyBy_of_no_ancestry (Category.ancestry_eq_empty h) message s.rules

/-- A class of the user's, once with all its ancestors and once with the one that matters. -/
theorem classify_by_ancestry_userClass :
    (∀ k : Kind, k.name ≠ "object".toList) ∧ Kind.valueError.Under .exception ∧
    builtin.classify ⟨"Odd".toList, ["ValueError".toList, "object".toList, "Exception".toList]⟩ "bad".toList =
      builtin.classify ⟨"ValueError".toList, ["Odd".toList, "Odd".toList]⟩ "bad".toList := by
  have hunknown : ∀ k ∈ Kind.all, k.name ≠ "object".toList := by decide +kernel
  have hobject : ∀ k : Kind, k.name ≠ "object".toList := fun k => hunknown k k.mem_all
  have hunder : Kind.valueError.Under .exception := Relation.ReflTransGen.single rfl
  obtain ⟨-, hnames, hbase, habove, -⟩ := classify_by_ancestry builtin "bad".toList
  refine ⟨hobject, hunder, ?_⟩
  have hobjectOut := hbase "Odd".toList "object".toList ["ValueError".toList] ["Exception".toList] hobject
  have hexceptionOut := habove "Odd".toList .valueError .exception ["ValueError".toList] [] (by decide +kernel) hunder
  refine hobjectOut.trans (hexceptionOut.trans (hnames _ _ fun t => ?_))
  simp only [Category.names, List.append_nil, List.mem_cons, List.not_mem_nil, or_false, or_self]
  exact or_comm

end RuleSet
end Traceback
