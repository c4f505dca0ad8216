import Traceback.Catalog
import Traceback.Proofs.Exception.Ancestry
import Traceback.Proofs.Rule.Precedence

/-! # Messages about names

Names stand between quotes, so they may hold anything but quotes, what stands behind them in the message among it.

* `quoted`: a name with its quotes.
* `hint`: what the interpreter adds to a message when it has another name to suggest, if it has.
* `quoted_names_restated`: the names come out as they went in, and the suggestion exactly when there is one.
-/

namespace Traceback.Catalog
set_option autoImplicit false

open Pattern

/-! ## Quotes -/

def quoted (name : Text) : Text := '\'' :: name ++ ['\'']

theorem mem_unquoted {t : Text} : t ∈ unquoted.language ↔ '\'' ∉ t := by
  rw [unquoted, zeroOrMore, mem_language_noneOf, List.forall_mem_singleton]

theorem unquoted_matches {t : Text} (h : '\'' ∉ t) : unquoted.Matches t [] := .of_names_nil rfl (mem_unquoted.mpr h)

/-- A name without quotes goes on to the quote behind it. -/
theorem unquoted_seq {q : Pattern} {name v : Text} {h : List (Text × Text)} (hname : '\'' ∉ name) (hq : q.Matches v h)
    (hv : v.head? = some '\'') (label : String) :
    (seq (group label unquoted) q).Matches (name ++ v) ((label.toList, name) :: h) :=
  Matches.seq_upTo ((ranks_greedy _ _).group label) ((unquoted_matches hname).group label) hq hv
    fun _ ht => mem_unquoted.mp ht

theorem quotedName_matches {name : Text} (hname : '\'' ∉ name) (label : String) :
    (quotedName label).Matches (quoted name) [(label.toList, quoted name)] := by
  have hbehind := Matches.seq_upTo (c := '\'') (ranks_greedy _ _) (unquoted_matches hname) (.literal "'") (by decide)
    fun _ ht => mem_unquoted.mp ht
  exact (hbehind.literal_seq "'").group label

theorem mem_quotedName {label : String} {t : Text} (h : t ∈ (quotedName label).language) :
    ∃ name, '\'' ∉ name ∧ t = quoted name := by
  rw [quotedName, mem_language_group, mem_language_all_cons] at h
  obtain ⟨_, hopening, _, h, rfl⟩ := h
  obtain ⟨name, hname, _, hclosing, rfl⟩ := mem_language_all_cons.mp h
  rw [mem_language_literal.mp hopening, mem_language_literal.mp hclosing]
  exact ⟨name, mem_unquoted.mp hname, rfl⟩

theorem quotedName_seq {q : Pattern} {name v : Text} {h : List (Text × Text)} (hname : '\'' ∉ name) (hq : q.Matches v h)
    (label : String) : (seq (quotedName label) q).Matches (quoted name ++ v) ((label.toList, quoted name) :: h) := by
  refine Matches.seq_only (quotedName_matches hname label) hq fun u' v' hu _ heq => ?_
  obtain ⟨other, hother, rfl⟩ := mem_quotedName hu
  have heq : other ++ '\'' :: v' = name ++ '\'' :: v := by simpa [quoted] using heq
  rw [eq_of_append_cons_eq hother hname heq]

/-! ## Suggestions -/

/-- The end of a message when another name is suggested. -/
def hint : Option Text → Text
  | none => []
  | some s => ". Did you mean: ".toList ++ (quoted s ++ "?".toList)

def restatedHint : Option Text → Text
  | none => []
  | some s => " (did you mean ".toList ++ quoted s ++ "?)".toList

def hintGroups : Option Text → List (Text × Text)
  | none => []
  | some s => [("suggestion".toList, quoted s)]

theorem suggestion_matches {s? : Option Text} (hs : ∀ s ∈ s?, '\'' ∉ s) :
    suggestion.Matches (hint s?) (hintGroups s?) := by
  cases s? with
  | none =>
    refine .absent fun h => ?_
    exact absurd (leastCount_le_count '?' h) (by decide +kernel)
  | some s =>
    have hmatches := quotedName_seq (hs s rfl) (.literal "?") "suggestion"
    exact (hmatches.literal_seq ". Did you mean: ").present

/-! ## The rules -/

variable {n m t a : Text} {s? : Option Text}

theorem undefinedName_matches (hn : '\'' ∉ n) (hs : ∀ s ∈ s?, '\'' ∉ s) :
    undefinedName.pattern.Matches ("name ".toList ++ (quoted n ++ (" is not defined".toList ++ hint s?)))
      (("name".toList, quoted n) :: hintGroups s?) := by
  have hbehind := (suggestion_matches hs).literal_seq " is not defined"
  exact (quotedName_seq hn hbehind "name").literal_seq "name "

theorem moduleAttribute_matches (hm : '\'' ∉ m) (ha : '\'' ∉ a) (hs : ∀ s ∈ s?, '\'' ∉ s) :
    moduleAttribute.pattern.Matches
      ("module '".toList ++ (m ++ ("' has no attribute '".toList ++ (a ++ ("'".toList ++ hint s?)))))
      (("module".toList, m) :: ("attr".toList, a) :: hintGroups s?) := by
  have hattribute := unquoted_seq ha ((suggestion_matches hs).literal_seq "'") rfl "attr"
  have hmodule := unquoted_seq hm (hattribute.literal_seq "' has no attribute '") rfl "module"
  exact hmodule.literal_seq "module '"

theorem missingAttribute_matches (ht : '\'' ∉ t) (ha : '\'' ∉ a) (hs : ∀ s ∈ s?, '\'' ∉ s) :
    missingAttribute.pattern.Matches
      ("'".toList ++ (t ++ ("' object has no attribute '".toList ++ (a ++ ("'".toList ++ hint s?)))))
      (("type".toList, t) :: ("attr".toList, a) :: hintGroups s?) := by
  have hattribute := unquoted_seq ha ((suggestion_matches hs).literal_seq "'") rfl "attr"
  have htype := unquoted_seq ht (hattribute.literal_seq "' object has no attribute '") rfl "type"
  exact htype.literal_seq "'"

theorem unboundLocal_matches (hn : '\'' ∉ n) :
    unboundLocal.pattern.Matches
      ("cannot access local variable ".toList ++ (quoted n ++ " where it is not associated with a value".toList))
      [("name".toList, quoted n)] := by
  have hname := quotedName_seq hn (.literal " where it is not associated with a value") "name"
  exact (hname.literal_seq "cannot access local variable ").left

theorem unboundLocal_matches_legacy (hn : '\'' ∉ n) :
    unboundLocal.pattern.Matches ("local variable ".toList ++ (quoted n ++ " referenced before assignment".toList))
      [("legacy".toList, quoted n)] := by
  have hname := quotedName_seq hn (.literal " referenced before assignment") "legacy"
  refine .right (notMem_of_divergesFrom ?_ _) (hname.literal_seq "local variable ")
  decide +kernel

/-! ## Restating -/

theorem undefinedName_restate (n : Text) (s? : Option Text) :
    undefinedName.restate (.ofPairs (("name".toList, quoted n) :: hintGroups s?)) =
      quoted n ++ " is not defined".toList ++ restatedHint s? := by
  cases s? with
  | none => rfl
  | some s => rfl

theorem moduleAttribute_restate (m a : Text) (s? : Option Text) :
    moduleAttribute.restate (.ofPairs (("module".toList, m) :: ("attr".toList, a) :: hintGroups s?)) =
      "module ".toList ++ quoted m ++ " has no member named ".toList ++ quoted a ++ restatedHint s? := by
  have hquotes : ∀ rest : Text, "module '".toList ++ m ++ "' has no member named '".toList ++ a ++ '\'' :: rest =
      "module ".toList ++ quoted m ++ " has no member named ".toList ++ quoted a ++ rest := by simp [quoted]
  cases s? with
  | none => exact hquotes []
  | some s => exact hquotes (restatedHint (some s))

theorem missingAttribute_restate (t a : Text) (s? : Option Text) :
    missingAttribute.restate (.ofPairs (("type".toList, t) :: ("attr".toList, a) :: hintGroups s?)) =
      "`<".toList ++ userTypeName t ++ ">` values have no attribute ".toList ++ quoted a ++ restatedHint s? := by
  have hquotes : ∀ rest : Text,
      "`".toList ++ ('<' :: userTypeName t ++ ['>']) ++ "` values have no attribute '".toList ++ a ++ '\'' :: rest =
        "`<".toList ++ userTypeName t ++ ">` values have no attribute ".toList ++ quoted a ++ rest := by
    simp [quoted]
  cases s? with
  | none => exact hquotes []
  | some s => exact hquotes (restatedHint (some s))

/-- Where the rules for the messages of type errors have no say. -/
theorem builtin_restates_of_no_typeError {i : Nat} {r : Rule} (hr : RuleSet.builtin.rules[i]? = some r) {c : Category}
    {message start rest restated : Text} {groups : List (Text × Text)} (hc : c.isA .typeError = false)
    (hbefore : ∀ b ∈ RuleSet.builtin.rules.take i, b.kind = .typeError ∨ b.pattern.divergesFrom start = true)
    (hkind : c.isA r.kind = true) (h : r.pattern.Matches (start ++ rest) groups) (hmessage : message = start ++ rest)
    (hrestated : r.restate (.ofPairs groups) = restated) :
    RuleSet.builtin.Restates c message r.name groups restated := by
  refine RuleSet.builtin_restates_of_start hr (fun b hb => (hbefore b hb).imp_left fun heq => ?_) hkind h hmessage
    hrestated
  rw [heq, hc]

/-- **Messages about names are restated with the names that they quote, and with a suggestion exactly when they end in
one.** An exception for an unbound local name whose message is that of an undefined one is restated as such. -/
theorem quoted_names_restated (c : Category) (hc : c.isA .typeError = false) (n m t a : Text) (s? : Option Text)
    (hn : '\'' ∉ n) (hm : '\'' ∉ m) (ht : '\'' ∉ t) (ha : '\'' ∉ a) (hs : ∀ s ∈ s?, '\'' ∉ s) :
    (c.isA .nameError = true →
      RuleSet.builtin.Restates c ("name ".toList ++ quoted n ++ " is not defined".toList ++ hint s?)
        "undefined-name".toList (("name".toList, quoted n) :: hintGroups s?)
        (quoted n ++ " is not defined".toList ++ restatedHint s?)) ∧
    (c.isA .attributeError = true →
      RuleSet.builtin.Restates c ("module ".toList ++ quoted m ++ " has no attribute ".toList ++ quoted a ++ hint s?)
        "module-attribute".toList (("module".toList, m) :: ("attr".toList, a) :: hintGroups s?)
        ("module ".toList ++ quoted m ++ " has no member named ".toList ++ quoted a ++ restatedHint s?) ∧
      RuleSet.builtin.Restates c (quoted t ++ " object has no attribute ".toList ++ quoted a ++ hint s?)
        "missing-attribute".toList (("type".toList, t) :: ("attr".toList, a) :: hintGroups s?)
        ("`<".toList ++ userTypeName t ++ ">` values have no attribute ".toList ++ quoted a ++ restatedHint s?)) ∧
    (c.isA .unboundLocalError = true →
      RuleSet.builtin.Restates c
        ("cannot access local variable ".toList ++ quoted n ++ " where it is not associated with a value".toList)
        "unbound-local".toList [("name".toList, quoted n)] (quoted n ++ " was used before it was assigned".toList) ∧
      RuleSet.builtin.Restates c ("local variable ".toList ++ quoted n ++ " referenced before assignment".toList)
        "unbound-local".toList [("legacy".toList, quoted n)] (quoted n ++ " was used before it was assigned".toList) ∧
      RuleSet.builtin.Restates c ("name ".toList ++ quoted n ++ " is not defined".toList ++ hint s?)
        "undefined-name".toList (("name".toList, quoted n) :: hintGroups s?)
        (quoted n ++ " is not defined".toList ++ restatedHint s?)) := by
  have hundefined : c.isA .nameError = true →
      RuleSet.builtin.Restates c ("name ".toList ++ quoted n ++ " is not defined".toList ++ hint s?)
        "undefined-name".toList (("name".toList, quoted n) :: hintGroups s?)
        (quoted n ++ " is not defined".toList ++ restatedHint s?) := by
    intro hkind
    refine builtin_restates_of_no_typeError (i := 12) rfl hc (by decide +kernel) hkind (undefinedName_matches hn hs) ?_
      (undefinedName_restate n s?)
    simp only [List.append_assoc]
  refine ⟨hundefined, fun hkind => ⟨?_, ?_⟩, fun hkind => ⟨?_, ?_, hundefined ?_⟩⟩
  · refine builtin_restates_of_no_typeError (i := 13) rfl hc (by decide +kernel) hkind
      (moduleAttribute_matches hm ha hs) ?_ (moduleAttribute_restate m a s?)
    simp [quoted]
  · refine builtin_restates_of_no_typeError (i := 14) rfl hc (by decide +kernel) hkind
      (missingAttribute_matches ht ha hs) ?_ (missingAttribute_restate t a s?)
    simp [quoted]
  · exact builtin_restates_of_no_typeError (i := 11) rfl hc (by decide +kernel) hkind (unboundLocal_matches hn)
      (List.append_assoc ..) rfl
  · exact builtin_restates_of_no_typeError (i := 11) rfl hc (by decide +kernel) hkind (unboundLocal_matches_legacy hn)
      (List.append_assoc ..) rfl
  · have hunder : Kind.unboundLocalError.Under .nameError := Relation.ReflTransGen.single rfl
    exact Category.isA_iff.mpr (Category.mem_ancestry_of_under (Category.isA_iff.mp hkind) hunder)

/-- A name that ends like a message with a suggestion. -/
theorem quoted_names_restated_dottedName :
    (Category.ofKind .unboundLocalError).isA .typeError = false ∧
    (∀ t ∈ ["x. Did you mean: y".toList, "m".toList, "T".toList, "a b".toList, "z".toList], '\'' ∉ t) ∧
    RuleSet.builtin.Restates (.ofKind .unboundLocalError)
      "name 'x. Did you mean: y' is not defined. Did you mean: 'z'?".toList "undefined-name".toList
      [("name".toList, "'x. Did you mean: y'".toList), ("suggestion".toList, "'z'".toList)]
      "'x. Did you mean: y' is not defined (did you mean 'z'?)".toList := by
  have hc : (Category.ofKind .unboundLocalError).isA .typeError = false := by decide +kernel
  have hquotes : ∀ t ∈ ["x. Did you mean: y".toList, "m".toList, "T".toList, "a b".toList, "z".toList], '\'' ∉ t := by
    decide +kernel
  have hmessage : "name 'x. Did you mean: y' is not defined. Did you mean: 'z'?".toList =
      "name ".toList ++ quoted "x. Did you mean: y".toList ++ " is not defined".toList ++ hint (some "z".toList) := by
    decide +kernel
  have hgroups : [("name".toList, "'x. Did you mean: y'".toList), ("suggestion".toList, "'z'".toList)] =
      ("name".toList, quoted "x. Did you mean: y".toList) :: hintGroups (some "z".toList) := by decide +kernel
  have hrestated : "'x. Did you mean: y' is not defined (did you mean 'z'?)".toList =
      quoted "x. Did you mean: y".toList ++ " is not defined".toList ++ restatedHint (some "z".toList) := by
    decide +kernel
  refine ⟨hc, hquotes, ?_⟩
  rw [hmessage, hgroups, hrestated]
  refine ((quoted_names_restated (.ofKind .unboundLocalError) hc "x. Did you mean: y".toList "m".toList "T".toList
    "a b".toList (some "z".toList) ?_ ?_ ?_ ?_ ?_).2.2 (by decide +kernel)).2.2
  · exact hquotes _ (.head _)
  · exact hquotes _ (.tail _ (.head _))
  · exact hquotes _ (.tail _ (.tail _ (.head _)))
  · exact hquotes _ (.tail _ (.tail _ (.tail _ (.head _))))
  · rintro s ⟨⟩
    exact hquotes _ (.tail _ (.tail _ (.tail _ (.tail _ (.head _)))))

end Traceback.Catalog
