import Traceback.Catalog
import Traceback.Proofs.Rule.Precedence

/-! # Messages about operands

The names of operators and types may hold anything but line feeds, the separators of the message among it. The quotes
around the operands tell which separators are meant.
-/

namespace Traceback.Catalog
set_option autoImplicit false

open Pattern

/-! ## Lines -/

theorem anything_matches {t : Text} (h : '\n' ∉ t) : anything.Matches t [] := .any (Nat.zero_le _) h

theorem something_matches {t : Text} (hne : t ≠ []) (h : '\n' ∉ t) : something.Matches t [] :=
  .any (List.length_pos_iff.mpr hne) h

theorem ranks_anything : anything.Ranks Longer := ranks_greedy 0 .any

theorem ranks_something : something.Ranks Longer := ranks_greedy 1 .any

/-! ## Two operands -/

/-- The operands hold no quotes, so the four quotes of the form are the last ones of the message. -/
theorem binaryOperand_matches {op left right : Text} (hop : op ≠ []) (hopLine : '\n' ∉ op) (hleftLine : '\n' ∉ left)
    (hleft : '\'' ∉ left) (hrightLine : '\n' ∉ right) (hright : '\'' ∉ right) :
    binaryOperand.pattern.Matches ("unsupported operand type(s) for ".toList ++
      (op ++ (": '".toList ++ (left ++ ("' and '".toList ++ (right ++ "'".toList))))))
      [("op".toList, op), ("left".toList, left), ("right".toList, right)] := by
  have hafterLeft : ("' and '".toList ++ (right ++ "'".toList)).count '\'' = 3 := by
    rw [List.count_append, List.count_append, List.count_eq_zero.mpr hright]
    rfl
  have hafterOp : (": '".toList ++ (left ++ ("' and '".toList ++ (right ++ "'".toList)))).count '\'' = 4 := by
    rw [List.count_append, List.count_append, hafterLeft, List.count_eq_zero.mpr hleft]
    rfl
  have hmatchesRight := Matches.seq_last (s := []) (c := '\'') (ranks_anything.group "right")
    ((anything_matches hrightLine).group "right") (.literal "'") List.not_mem_nil (by decide) (by decide)
  have hmatchesLeft := Matches.seq_last (s := []) (c := '\'') (ranks_anything.group "left")
    ((anything_matches hleftLine).group "left") (hmatchesRight.literal_seq "' and '") List.not_mem_nil (by decide)
    hafterLeft.le
  have hmatchesOp := Matches.seq_last (s := [':', ' ']) (c := '\'') (ranks_something.group "op")
    ((something_matches hop hopLine).group "op") (hmatchesLeft.literal_seq ": '") (by decide) (by decide) hafterOp.le
  exact hmatchesOp.literal_seq "unsupported operand type(s) for "

/-- Here the two quotes around the second operand are the last ones. -/
theorem concatenation_matches {first left right : Text} (hfirstLine : '\n' ∉ first) (hleftLine : '\n' ∉ left)
    (hleft : '"' ∉ left) (hrightLine : '\n' ∉ right) (hright : '"' ∉ right) :
    concatenation.pattern.Matches ("can only concatenate ".toList ++
      (first ++ (" (not \"".toList ++ (right ++ ("\") to ".toList ++ left)))))
      [("right".toList, right), ("left".toList, left)] := by
  have hafterRight : ("\") to ".toList ++ left).count '"' = 1 := by
    rw [List.count_append, List.count_eq_zero.mpr hleft]
    rfl
  have hafterFirst : (" (not \"".toList ++ (right ++ ("\") to ".toList ++ left))).count '"' = 2 := by
    rw [List.count_append, List.count_append, hafterRight, List.count_eq_zero.mpr hright]
    rfl
  have hmatchesLeft := ((anything_matches hleftLine).group "left").literal_seq "\") to "
  have hmatchesRight := Matches.seq_last (s := []) (c := '"') (ranks_anything.group "right")
    ((anything_matches hrightLine).group "right") hmatchesLeft List.not_mem_nil (by decide) hafterRight.le
  have hmatchesFirst := Matches.seq_last (s := " (not ".toList) (c := '"') ranks_anything (anything_matches hfirstLine)
    (hmatchesRight.literal_seq " (not \"") (by decide) (by decide) hafterFirst.le
  exact hmatchesFirst.literal_seq "can only concatenate "

/-! ## Restating -/

theorem binaryOperand_restate (op left right : Text) :
    binaryOperand.restate (.ofPairs [("op".toList, op), ("left".toList, left), ("right".toList, right)]) =
      "cannot do `<".toList ++ userTypeName left ++ "> ".toList ++ operatorName op ++ " <".toList ++
        userTypeName right ++ ">`".toList := by
  change "cannot do `".toList ++ ('<' :: userTypeName left ++ ['>']) ++ ' ' :: operatorName op ++
    ' ' :: ('<' :: userTypeName right ++ ['>']) ++ "`".toList = _
  simp

theorem concatenation_restate (left right : Text) :
    concatenation.restate (.ofPairs [("right".toList, right), ("left".toList, left)]) =
      "cannot do `<".toList ++ userTypeName left ++ "> + <".toList ++ userTypeName right ++ ">`".toList := by
  change "cannot do `".toList ++ ('<' :: userTypeName left ++ ['>']) ++ " + ".toList ++
    ('<' :: userTypeName right ++ ['>']) ++ "`".toList = _
  simp

/-- **A message about two operands is restated with exactly its operator and its operands, whatever else they hold:**
operators and first operands of a concatenation may themselves hold the separators and quotes of the message. -/
theorem operands_restated (c : Category) (hkind : c.isA .typeError = true) :
    (∀ op left right : Text, op ≠ [] → '\n' ∉ op → '\n' ∉ left → '\'' ∉ left → '\n' ∉ right → '\'' ∉ right →
      RuleSet.builtin.Restates c
        ("unsupported operand type(s) for ".toList ++ op ++ ": '".toList ++ left ++ "' and '".toList ++ right ++
          "'".toList)
        "binary-operand".toList [("op".toList, op), ("left".toList, left), ("right".toList, right)]
        ("cannot do `<".toList ++ userTypeName left ++ "> ".toList ++ operatorName op ++ " <".toList ++
          userTypeName right ++ ">`".toList)) ∧
    (∀ first left right : Text, '\n' ∉ first → '\n' ∉ left → '"' ∉ left → '\n' ∉ right → '"' ∉ right →
      RuleSet.builtin.Restates c
        ("can only concatenate ".toList ++ first ++ " (not \"".toList ++ right ++ "\") to ".toList ++ left)
        "concatenation".toList [("right".toList, right), ("left".toList, left)]
        ("cannot do `<".toList ++ userTypeName left ++ "> + <".toList ++ userTypeName right ++ ">`".toList)) := by
  have hconversions : ∀ b ∈ RuleSet.builtin.rules.take 2,
      b.pattern.divergesFrom "unsupported operand type(s) for ".toList = true := by decide +kernel
  have hearlier : ∀ b ∈ RuleSet.builtin.rules.take 3, b.pattern.divergesFrom "can only concatenate ".toList = true := by
    decide +kernel
  constructor
  · intro op left right hop hopLine hleftLine hleft hrightLine hright
    refine RuleSet.builtin_restates_of_start (n := 2) rfl (fun b hb => Or.inr (hconversions b hb)) hkind
      (binaryOperand_matches hop hopLine hleftLine hleft hrightLine hright) ?_ (binaryOperand_restate op left right)
    simp only [List.append_assoc]
  · intro first left right hfirstLine hleftLine hleft hrightLine hright
    refine RuleSet.builtin_restates_of_start (n := 3) rfl (fun b hb => Or.inr (hearlier b hb)) hkind
      (concatenation_matches hfirstLine hleftLine hleft hrightLine hright) ?_ (concatenation_restate left right)
    simp only [List.append_assoc]

/-- An operator that looks like a message of its own. -/
theorem operands_restated_nested :
    Category.isA ⟨"Odd".toList, ["TypeError".toList, "ValueError".toList]⟩ .typeError = true ∧
    RuleSet.builtin.Restates ⟨"Odd".toList, ["TypeError".toList, "ValueError".toList]⟩
      "unsupported operand type(s) for +: 'a' and 'b': 'NoneType' and 'str'".toList "binary-operand".toList
      [("op".toList, "+: 'a' and 'b'".toList), ("left".toList, "NoneType".toList), ("right".toList, "str".toList)]
      "cannot do `<None> +: 'a' and 'b' <str>`".toList := by
  have hkind : Category.isA ⟨"Odd".toList, ["TypeError".toList, "ValueError".toList]⟩ .typeError = true := by
    decide +kernel
  have hmessage : "unsupported operand type(s) for +: 'a' and 'b': 'NoneType' and 'str'".toList =
      "unsupported operand type(s) for ".toList ++ "+: 'a' and 'b'".toList ++ ": '".toList ++ "NoneType".toList ++
        "' and '".toList ++ "str".toList ++ "'".toList := by decide +kernel
  have hrestated : "cannot do `<None> +: 'a' and 'b' <str>`".toList =
      "cannot do `<".toList ++ userTypeName "NoneType".toList ++ "> ".toList ++ operatorName "+: 'a' and 'b'".toList ++
        " <".toList ++ userTypeName "str".toList ++ ">`".toList := by decide +kernel
  refine ⟨hkind, ?_⟩
  rw [hmessage, hrestated]
  exact (operands_restated _ hkind).1 _ _ _ (by decide) (by decide) (by decide) (by decide) (by decide) (by decide)

end Traceback.Catalog
