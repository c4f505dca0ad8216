import Traceback.Proofs.Pattern.Landmarks
import Traceback.Proofs.Rule

/-! # Precedence

The first rule that applies decides what becomes of a message.

* `RuleSet.Restates`: what a message becomes, with the name of the rule and its groups.
* `RuleSet.Wins`: the rule that decides, by its place.
* `RuleSet.builtin_restates`, `RuleSet.builtin_restates_of_start`: the rules that decide in the catalog.
-/

namespace Traceback
set_option autoImplicit false

theorem Rule.groups?_of_matches {r : Rule} {c : Category} {message : Text} {groups : List (Text × Text)}
    (hnames : r.pattern.names.Nodup) (hkind : c.isA r.kind = true) (h : r.pattern.Matches message groups) :
    r.groups? c message = some (.ofPairs groups) ∧ (Groups.ofPairs groups).pairs = groups := by
  obtain ⟨x, hx, rfl⟩ := h
  refine ⟨?_, Groups.pairs_ofPairs (hnames.sublist (Pattern.names_groups_sublist hx.fits))⟩
  rw [groups?, if_pos hkind]
  exact Pattern.groups?_eq_some_iff.mpr ⟨x, hx, rfl⟩

theorem Rule.groups?_eq_none {r : Rule} {c : Category} {message : Text}
    (h : c.isA r.kind = false ∨ message ∉ r.pattern.language) : r.groups? c message = none := by
  rw [groups?]
  rcases h with h | h
  · rw [h, if_neg Bool.false_ne_true]
  · rw [← Pattern.isSome_groups?_iff, Option.isSome_iff_ne_none, not_not] at h
    rw [h, ite_self]

namespace RuleSet

/-- The rule of that name restates the message, with these groups and no others. -/
def Restates (s : RuleSet) (c : Category) (message rule : Text) (groups : List (Text × Text)) (restated : Text) :
    Prop :=
  ∃ g : Groups, s.classify c message = ⟨some rule, g, restated⟩ ∧ g.pairs = groups

theorem classifyBy_append {c : Category} {message : Text} {before : List Rule}
    (h : ∀ r ∈ before, r.groups? c message = none) (after : List Rule) :
    classifyBy c message (before ++ after) = classifyBy c message after := by
  induction before with
  | nil => rfl
  | cons r before ih =>
    rw [List.forall_mem_cons] at h
    rw [List.cons_append, classifyBy_cons, h.1, ih h.2]

/-- The rule at place `n` applies to the message, with these groups, and none before it does. -/
structure Wins (rules : List Rule) (c : Category) (message : Text) (n : Nat) (r : Rule) (groups : Groups) : Prop where
  place : rules[n]? = some r
  applies : r.groups? c message = some groups
  first : ∀ earlier ∈ rules.take n, earlier.groups? c message = none

theorem Wins.classifyBy_eq {rules : List Rule} {c : Category} {message : Text} {n : Nat} {r : Rule} {groups : Groups}
    (h : Wins rules c message n r groups) : classifyBy c message rules = ⟨some r.name, groups, r.restate groups⟩ := by
  obtain ⟨hn, hr⟩ := List.getElem?_eq_some_iff.mp h.place
  have hrules : rules = rules.take n ++ r :: rules.drop (n + 1) := by
    rw [← hr, ← List.drop_eq_getElem_cons hn, List.take_append_drop]
  rw [hrules, classifyBy_append h.first, classifyBy_cons, h.applies]

/-- A rule of the catalog restates its messages when every rule before it is for other kinds or other messages. -/
theorem builtin_restates {n : Nat} {r : Rule} (hr : builtin.rules[n]? = some r) {c : Category} {message : Text}
    {groups : List (Text × Text)}
    (hbefore : ∀ b ∈ builtin.rules.take n, c.isA b.kind = false ∨ message ∉ b.pattern.language)
    (hkind : c.isA r.kind = true) (h : r.pattern.Matches message groups) :
    builtin.Restates c message r.name groups (r.restate (.ofPairs groups)) := by
  have hnames := nodup_names_builtin r (List.mem_of_getElem? hr)
  obtain ⟨hgroups, hpairs⟩ := Rule.groups?_of_matches hnames hkind h
  have hwins : Wins builtin.rules c message n r (.ofPairs groups) :=
    ⟨hr, hgroups, fun b hb => Rule.groups?_eq_none (hbefore b hb)⟩
  exact ⟨.ofPairs groups, hwins.classifyBy_eq, hpairs⟩

/-- The beginning of a message is enough to tell it from those of the rules before. -/
theorem builtin_restates_of_start {n : Nat} {r : Rule} (hr : builtin.rules[n]? = some r) {c : Category}
    {message start rest restated : Text} {groups : List (Text × Text)}
    (hbefore : ∀ b ∈ builtin.rules.take n, c.isA b.kind = false ∨ b.pattern.divergesFrom start = true)
    (hkind : c.isA r.kind = true) (h : r.pattern.Matches (start ++ rest) groups) (hmessage : message = start ++ rest)
    (hrestated : r.restate (.ofPairs groups) = restated) : builtin.Restates c message r.name groups restated := by
  rw [hmessage, ← hrestated]
  refine builtin_restates hr (fun b hb => ?_) hkind h
  exact (hbefore b hb).imp_right fun hdiverges => Pattern.notMem_of_divergesFrom hdiverges rest

end RuleSet
end Traceback
