import Traceback.Catalog
import Traceback.Proofs.Rule.Precedence

/-! # Messages of syntax errors

The interpreter ends the message of a syntax error with the place of the error in round brackets. The names of files
hold no brackets, so only the last brackets of a message can be a place.

* `IsPlace`, `place`: a file and a line, and how they are written behind a message.
* `syntax_message_restated`: a message loses its place and nothing else.
-/

namespace Traceback.Catalog
set_option autoImplicit false

open Pattern

/-! ## Places -/

/-- A file and a line that can be written as a place. -/
structure IsPlace (file line : Text) : Prop where
  opening : '(' ∉ file
  closing : ')' ∉ file
  nonempty : line ≠ []
  digit : ∀ d ∈ line, CharSet.digit.mem d = true

def place (file line : Text) : Text := " (".toList ++ (file ++ (", line ".toList ++ (line ++ ")".toList)))

def located : Pattern :=
  all [literal " (", group "file" (zeroOrMore (.noneOf ['(', ')'])), literal ", line ", group "line" digits,
    literal ")"]

theorem syntaxMessage_pattern : syntaxMessage.pattern = seq (group "msg" (many false 0 .any)) (optional located) := rfl

theorem mem_unbracketed {t : Text} :
    t ∈ (zeroOrMore (.noneOf ['(', ')'])).language ↔ '(' ∉ t ∧ ')' ∉ t := by
  rw [zeroOrMore, mem_language_noneOf, List.forall_mem_cons, List.forall_mem_singleton]

theorem mem_digits {t : Text} : t ∈ digits.language ↔ t ≠ [] ∧ ∀ d ∈ t, CharSet.digit.mem d = true := by
  rw [digits, oneOrMore, mem_language_many, Nat.one_le_iff_ne_zero, Ne, List.length_eq_zero_iff]

/-- A mark that is no digit does not occur among digits. -/
theorem notMem_of_digits {t : Text} {c : Char} (h : ∀ d ∈ t, CharSet.digit.mem d = true)
    (hc : CharSet.digit.mem c = false) : c ∉ t := by
  intro hmem
  rw [h c hmem] at hc
  cases hc

theorem mem_located {t : Text} (h : t ∈ located.language) : ∃ file line, IsPlace file line ∧ t = place file line := by
  obtain ⟨_, hopen, _, hafterOpen, rfl⟩ := mem_language_all_cons.mp h
  obtain ⟨file, hfile, _, hafterFile, rfl⟩ := mem_language_all_cons.mp hafterOpen
  obtain ⟨_, hline, _, hafterLine, rfl⟩ := mem_language_all_cons.mp hafterFile
  obtain ⟨line, hdigits, _, hclose, rfl⟩ := mem_language_all_cons.mp hafterLine
  rw [mem_language_literal.mp hopen, mem_language_literal.mp hline, mem_language_literal.mp hclose]
  obtain ⟨hopening, hclosing⟩ := mem_unbracketed.mp hfile
  obtain ⟨hnonempty, hdigit⟩ := mem_digits.mp hdigits
  exact ⟨file, line, ⟨hopening, hclosing, hnonempty, hdigit⟩, rfl⟩

/-- The file ends at the last comma. -/
theorem located_matches {file line : Text} (h : IsPlace file line) :
    located.Matches (place file line) [("file".toList, file), ("line".toList, line)] := by
  have hline := Matches.seq_upTo (c := ')') ((ranks_greedy 1 .digit).group "line")
    ((Matches.of_names_nil rfl (mem_digits.mpr ⟨h.nonempty, h.digit⟩)).group "line") (.literal ")") (by decide)
    fun _ ht => notMem_of_digits (mem_digits.mp ht).2 (by decide)
  have hcommas : (", line ".toList ++ (line ++ ")".toList)).count ',' = 1 := by
    rw [List.count_append, List.count_append, List.count_eq_zero.mpr (notMem_of_digits h.digit (by decide))]
    rfl
  have hfile := Matches.seq_last (s := []) (c := ',') ((ranks_greedy 0 (.noneOf ['(', ')'])).group "file")
    ((Matches.of_names_nil rfl (mem_unbracketed.mpr ⟨h.opening, h.closing⟩)).group "file") (hline.literal_seq ", line ")
    List.not_mem_nil (by decide) hcommas.le
  exact hfile.literal_seq " ("

theorem count_place {file line : Text} (h : IsPlace file line) : (place file line).count '(' = 1 := by
  rw [place, List.count_append, List.count_append, List.count_append, List.count_append,
    List.count_eq_zero.mpr h.opening, List.count_eq_zero.mpr (notMem_of_digits h.digit (by decide))]
  rfl

/-- No place ends in another. -/
theorem eq_nil_of_place {d file line file' line' : Text} (h : IsPlace file line) (h' : IsPlace file' line')
    (heq : place file' line' = d ++ place file line) : d = [] := by
  have hcount := congrArg (List.count '(') heq
  rw [List.count_append, count_place h, count_place h'] at hcount
  have hd : '(' ∉ d := List.count_eq_zero.mp (by omega)
  exact eq_nil_of_landmark (s := [' ']) (c := '(') (by decide) hd heq

/-! ## Messages -/

theorem syntaxMessage_matches_located {m file line : Text} (hm : '\n' ∉ m) (h : IsPlace file line) :
    syntaxMessage.pattern.Matches (m ++ place file line)
      [("msg".toList, m), ("file".toList, file), ("line".toList, line)] := by
  rw [syntaxMessage_pattern]
  refine Matches.seq_shortest ((ranks_lazy 0 .any).group "msg") ((Matches.any (Nat.zero_le _) hm).group "msg")
    (located_matches h).present fun m' d _ hd => ?_
  rcases mem_language_optional.mp hd with hd | hd
  · obtain ⟨file', line', h', heq⟩ := mem_located hd
    exact eq_nil_of_place h h' heq.symm
  · exact (List.append_eq_nil_iff.mp hd).1

theorem syntaxMessage_matches_plain {m : Text} (hm : '\n' ∉ m)
    (hplain : ∀ m' file line, '\n' ∉ m' → IsPlace file line → m ≠ m' ++ place file line) :
    syntaxMessage.pattern.Matches m [("msg".toList, m)] := by
  have hnil : [] ∉ located.language := fun h => absurd (leastCount_le_count '(' h) (by decide +kernel)
  have hmatches := Matches.seq_shortest ((ranks_lazy 0 .any).group "msg") ((Matches.any (Nat.zero_le _) hm).group "msg")
    (Matches.absent hnil) fun m' d heq hd => ?_
  · rw [List.append_nil] at hmatches
    rw [syntaxMessage_pattern]
    exact hmatches
  · rw [List.append_nil] at hd
    rcases mem_language_optional.mp hd with hd | hd
    · obtain ⟨file, line, h, rfl⟩ := mem_located hd
      have hm' : '\n' ∉ m' := fun hmem => hm (heq ▸ List.mem_append_left _ hmem)
      exact absurd heq (hplain m' file line hm' h)
    · exact hd

/-- **The message of a syntax error is restated without the place at its end, and with all else that it says:** places
and brackets in front of the last place are kept, and a message without a place is kept as it is. -/
theorem syntax_message_restated (c : Category) (hkind : c.isA .syntaxError = true)
    (hother : ∀ r ∈ RuleSet.builtin.rules, r.kind ≠ .syntaxError → c.isA r.kind = false) :
    (∀ m file line : Text, '\n' ∉ m → IsPlace file line →
      RuleSet.builtin.Restates c (m ++ place file line) "syntax".toList
        [("msg".toList, m), ("file".toList, file), ("line".toList, line)] m) ∧
    (∀ m : Text, '\n' ∉ m → (∀ m' file line, '\n' ∉ m' → IsPlace file line → m ≠ m' ++ place file line) →
      RuleSet.builtin.Restates c m "syntax".toList [("msg".toList, m)] m) := by
  have hkinds : ∀ b ∈ RuleSet.builtin.rules.take 20, b.kind ≠ .syntaxError := by decide +kernel
  have hbefore : ∀ b ∈ RuleSet.builtin.rules.take 20, c.isA b.kind = false :=
    fun b hb => hother b (List.mem_of_mem_take hb) (hkinds b hb)
  constructor
  · intro m file line hm h
    exact RuleSet.builtin_restates (n := 20) rfl (fun b hb => Or.inl (hbefore b hb)) hkind
      (syntaxMessage_matches_located hm h)
  · intro m hm hplain
    exact RuleSet.builtin_restates (n := 20) rfl (fun b hb => Or.inl (hbefore b hb)) hkind
      (syntaxMessage_matches_plain hm hplain)

/-- A message that holds a place of its own, and a file with a comma. -/
theorem syntax_message_restated_twoPlaces :
    (Category.ofKind .tabError).isA .syntaxError = true ∧
    (∀ r ∈ RuleSet.builtin.rules, r.kind ≠ .syntaxError → (Category.ofKind .tabError).isA r.kind = false) ∧
    RuleSet.builtin.Restates (.ofKind .tabError) "odd (a, line 1) (b, line 2, line 3)".toList "syntax".toList
      [("msg".toList, "odd (a, line 1)".toList), ("file".toList, "b, line 2".toList), ("line".toList, "3".toList)]
      "odd (a, line 1)".toList := by
  have hkind : (Category.ofKind .tabError).isA .syntaxError = true := by decide +kernel
  have hother : ∀ r ∈ RuleSet.builtin.rules, r.kind ≠ .syntaxError →
      (Category.ofKind .tabError).isA r.kind = false := by decide +kernel
  have hplace : IsPlace "b, line 2".toList "3".toList :=
    ⟨by decide +kernel, by decide +kernel, by decide +kernel, List.all_eq_true.mp (by decide +kernel)⟩
  have hmessage : "odd (a, line 1) (b, line 2, line 3)".toList =
      "odd (a, line 1)".toList ++ place "b, line 2".toList "3".toList := by decide +kernel
  refine ⟨hkind, hother, ?_⟩
  rw [hmessage]
  exact (syntax_message_restated _ hkind hother).1 _ _ _ (by decide +kernel) hplace

end Traceback.Catalog
