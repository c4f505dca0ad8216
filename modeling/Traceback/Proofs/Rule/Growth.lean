import Traceback.Proofs.Rule.Precedence

/-! # Rule sets that grow

A rule set grows at its end, so that what it made of a message it goes on to make of it.

* `RuleSet.Wins.append`: the rule that decides goes on to decide.
* `RuleSet.rules_foldl_push`: the history of a rule set is the list of its rules.
* `RuleSet.classify_grown`: what a grown rule set makes of a message.
-/

namespace Traceback
set_option autoImplicit false

namespace RuleSet

/-! ## The rule that decides -/

section Wins
variable {rules : List Rule} {c : Category} {message : Text} {n : Nat} {r : Rule} {groups : Groups}

theorem Wins.append (h : Wins rules c message n r groups) (added : List Rule) :
    Wins (rules ++ added) c message n r groups := by
  obtain ⟨hn, -⟩ := List.getElem?_eq_some_iff.mp h.place
  refine ⟨?_, h.applies, ?_⟩
  · rw [List.getElem?_append_left hn, h.place]
  · rw [List.take_append_of_le_length (Nat.le_of_lt hn)]
    exact h.first

theorem Wins.cons {before : Rule} (hbefore : before.groups? c message = none) (h : Wins rules c message n r groups) :
    Wins (before :: rules) c message (n + 1) r groups where
  place := h.place
  applies := h.applies
  first := by
    rw [List.take_succ_cons, List.forall_mem_cons]
    exact ⟨hbefore, h.first⟩

theorem exists_wins (h : ∃ r ∈ rules, (r.groups? c message).isSome = true) :
    ∃ n r groups, Wins rules c message n r groups := by
  induction rules with
  | nil => simp at h
  | cons head rules ih =>
    cases hhead : head.groups? c message with
    | some groups => exact ⟨0, head, groups, rfl, hhead, by simp⟩
    | none =>
      have htail : ∃ r ∈ rules, (r.groups? c message).isSome = true := by simpa [hhead] using h
      obtain ⟨n, r, groups, hwins⟩ := ih htail
      exact ⟨n + 1, r, groups, hwins.cons hhead⟩

theorem classifyBy_of_none (h : ∀ r ∈ rules, r.groups? c message = none) :
    classifyBy c message rules = ⟨none, {}, message⟩ := by
  have hend : classifyBy c message (rules ++ []) = classifyBy c message [] := classifyBy_append h []
  rwa [List.append_nil] at hend

end Wins

/-! ## Growth -/

theorem rules_foldl_push (s : RuleSet) (added : List Rule) : (added.foldl push s).rules = s.rules ++ added := by
  induction added generalizing s with
  | nil => simp
  | cons r added ih => rw [List.foldl_cons, ih, push, List.append_assoc, List.singleton_append]

/-- **Growing is conservative.** What a rule set restates it restates in the same way after rules were pushed; what it
does not is left to the new rules as they stand alone. The first rule of all that were ever pushed to apply decides, by
its own match and in its own words, whatever the rules are called; without one the message is kept. -/
theorem classify_grown (s : RuleSet) (added : List Rule) (c : Category) (message : Text) :
    let grown := added.foldl push s
    grown.rules = s.rules ++ added ∧
    ((∃ r ∈ s.rules, (r.groups? c message).isSome = true) → grown.classify c message = s.classify c message) ∧
    ((∀ r ∈ s.rules, r.groups? c message = none) →
      grown.classify c message = (added.foldl push {}).classify c message) ∧
    ((∃ r ∈ grown.rules, (r.groups? c message).isSome = true) → ∃ n r groups, Wins grown.rules c message n r groups) ∧
    (∀ n r groups, Wins grown.rules c message n r groups →
      grown.classify c message = ⟨some r.name, groups, r.restate groups⟩) ∧
    ((∀ r ∈ grown.rules, r.groups? c message = none) → grown.classify c message = ⟨none, {}, message⟩) := by
  intro grown
  have hrules : grown.rules = s.rules ++ added := rules_foldl_push s added
  have halone : (added.foldl push {}).rules = added := rules_foldl_push {} added
  refine ⟨hrules, fun h => ?_, fun h => ?_, exists_wins, fun n r groups h => h.classifyBy_eq, classifyBy_of_none⟩
  · obtain ⟨n, r, groups, hwins⟩ := exists_wins h
    rw [classify, classify, hrules, (hwins.append added).classifyBy_eq, hwins.classifyBy_eq]
  · rw [classify, classify, hrules, halone, classifyBy_append h]

/-- Two rules of one name behind the catalog: for a message that the catalog leaves alone the first is of the wrong kind,
so the second decides; the catalog goes on to restate its own messages. -/
theorem classify_grown_sameName :
    let narrow : Rule := ⟨"boom".toList, .valueError, Catalog.anything, fun _ => []⟩
    let wide : Rule := ⟨"boom".toList, .exception, .group "all" Catalog.anything, fun g => g.get "all" ++ ['!']⟩
    let grown := [narrow, wide].foldl push builtin
    let groups := Groups.insert {} "all".toList ['x']
    ((∃ r ∈ grown.rules, (r.groups? (.ofKind .runtimeError) ['x']).isSome = true) ∧
      (∃ n r groups, Wins grown.rules (.ofKind .runtimeError) ['x'] n r groups) ∧
      Wins grown.rules (.ofKind .runtimeError) ['x'] 22 wide groups ∧
      grown.classify (.ofKind .runtimeError) ['x'] = ⟨some "boom".toList, groups, ['x', '!']⟩) ∧
    ((∀ r ∈ builtin.rules, r.groups? (.ofKind .runtimeError) ['x'] = none) ∧
      grown.classify (.ofKind .runtimeError) ['x'] =
        ([narrow, wide].foldl push {}).classify (.ofKind .runtimeError) ['x']) ∧
    ((∃ r ∈ builtin.rules, (r.groups? (.ofKind .zeroDivisionError) "division by zero".toList).isSome = true) ∧
      grown.classify (.ofKind .zeroDivisionError) "division by zero".toList =
        builtin.classify (.ofKind .zeroDivisionError) "division by zero".toList) ∧
    (∀ r ∈ grown.rules, r.groups? (.ofKind .keyboardInterrupt) ['x'] = none) ∧
      grown.classify (.ofKind .keyboardInterrupt) ['x'] = ⟨none, {}, ['x']⟩ := by
  intro narrow wide grown groups
  have hwins : Wins grown.rules (.ofKind .runtimeError) ['x'] 22 wide groups :=
    ⟨rfl, by decide +kernel, by decide +kernel⟩
  have happlies : ∃ r ∈ grown.rules, (r.groups? (.ofKind .runtimeError) ['x']).isSome = true := by decide +kernel
  have hsilent : ∀ r ∈ builtin.rules, r.groups? (.ofKind .runtimeError) ['x'] = none := by decide +kernel
  have hspeaks : ∃ r ∈ builtin.rules,
      (r.groups? (.ofKind .zeroDivisionError) "division by zero".toList).isSome = true := by decide +kernel
  have hnone : ∀ r ∈ grown.rules, r.groups? (.ofKind .keyboardInterrupt) ['x'] = none := by decide +kernel
  obtain ⟨-, -, halone, hexists, hdecides, -⟩ := classify_grown builtin [narrow, wide] (.ofKind .runtimeError) ['x']
  obtain ⟨-, hkeeps, -⟩ :=
    classify_grown builtin [narrow, wide] (.ofKind .zeroDivisionError) "division by zero".toList
  obtain ⟨-, -, -, -, -, hkept⟩ := classify_grown builtin [narrow, wide] (.ofKind .keyboardInterrupt) ['x']
  exact ⟨⟨happlies, hexists happlies, hwins, hdecides 22 wide groups hwins⟩, ⟨hsilent, halone hsilent⟩,
    ⟨hspeaks, hkeeps hspeaks⟩, hnone, hkept hnone⟩

end RuleSet
end Traceback
