import Traceback.Rule
import Traceback.Catalog
import Traceback.Proofs.Pattern.Preference
import Traceback.Proofs.Store.Record

/-! # Rules and whole messages

A rule looks for its pattern between the beginning and the end of a message. The search goes from left to right and
takes the run that is preferred at the first place with any.

* `Sought`, `Sought.search`: patterns next to the beginning and the end of a text, and the search for them.
* `Sought.search_wholly`: between both ends, the search finds the first run that leaves nothing.
* `Rule.groups?_wholly`: a rule has groups for the messages of its kind that have the form of its pattern as a whole,
  and its groups are those of the preferred way.
-/

namespace Traceback
set_option autoImplicit false

def Run.groups (r : Run) : Groups := Groups.ofPairs (r.captures.map fun c => (c.name, c.text))

/-! ## Search -/

/-- What is looked for in a text. -/
inductive Sought where
  | pattern (p : Pattern)
  | textStart
  | textEnd
  | seq (first second : Sought)

namespace Sought

/-- All ways to match where `t` is left of the text, the preferred ones first. -/
def runs (whole : Text) : Sought → Text → List Run
  | pattern p, t => p.runs t
  | textStart, t => if t = whole then [⟨[], t⟩] else []
  | textEnd, t => if t.isEmpty then [⟨[], t⟩] else []
  | seq first second, t =>
    (runs whole first t).flatMap fun r => (runs whole second r.rest).map fun r' => ⟨r.captures ++ r'.captures, r'.rest⟩

/-- The preferred run at the first place where there is one. -/
def search (s : Sought) (whole : Text) : Option Run := whole.tails.findSome? fun t => (s.runs whole t).head?

/-- The pattern, all of it, between both ends of the text. -/
def wholly (p : Pattern) : Sought := seq textStart (seq (pattern p) textEnd)

/-- From the beginning, only the runs up to the end remain. -/
theorem runs_wholly_self (p : Pattern) (whole : Text) :
    (wholly p).runs whole whole = (p.runs whole).filter fun r => r.rest.isEmpty := by
  have hend : ∀ r : Run, ((runs whole textEnd r.rest).map fun r' => Run.mk (r.captures ++ r'.captures) r'.rest) =
      if r.rest.isEmpty then [r] else [] := by
    intro r
    rw [runs]
    split
    · rw [List.map_singleton, List.append_nil]
    · rfl
  have hrest : (seq (pattern p) textEnd).runs whole whole = (p.runs whole).filter fun r => r.rest.isEmpty := by
    rw [runs, runs, funext hend]
    induction p.runs whole with
    | nil => rfl
    | cons r l ih =>
      rw [List.flatMap_cons, ih, List.filter_cons]
      split <;> rfl
  rw [wholly, runs, runs, if_pos rfl, List.flatMap_singleton, hrest]
  exact List.map_id _

theorem runs_wholly_of_ne (p : Pattern) {whole t : Text} (h : t ≠ whole) : (wholly p).runs whole t = [] := by
  rw [wholly, runs, runs, if_neg h, List.flatMap_nil]

/-- **Between both ends, the search finds the first run that leaves nothing.** -/
theorem search_wholly (p : Pattern) (whole : Text) :
    (wholly p).search whole = (p.runs whole).find? fun r => r.rest.isEmpty := by
  have hself : ((wholly p).runs whole whole).head? = (p.runs whole).find? fun r => r.rest.isEmpty := by
    rw [runs_wholly_self, List.head?_filter]
  -- no later place is the beginning of the text
  have hlater : ∀ t ∈ whole.tails.tail, ((wholly p).runs whole t).head? = none := by
    intro t ht
    rw [runs_wholly_of_ne p, List.head?_nil]
    cases whole with
    | nil => cases ht
    | cons c rest =>
      have hsuffix : t <:+ rest := (List.mem_tails t rest).mp ht
      rintro rfl
      exact absurd hsuffix.length_le (Nat.not_succ_le_self _)
  have htails : whole.tails = whole :: whole.tails.tail := by cases whole <;> rfl
  rw [search, htails, List.findSome?_cons, hself]
  cases (p.runs whole).find? fun r => r.rest.isEmpty with
  | some r => rfl
  | none => exact List.findSome?_eq_none_iff.mpr hlater

end Sought

/-! ## Rules -/

theorem Pattern.groups?_eq_search (p : Pattern) (t : Text) :
    p.groups? t = ((Sought.wholly p).search t).map Run.groups := by
  rw [groups?, Sought.search_wholly]
  rfl

/-- Pairs under different names stay as they are. -/
theorem Groups.pairs_ofPairs {l : List (Text × Text)} (h : (l.map (·.1)).Nodup) : (ofPairs l).pairs = l :=
  foldl_insert_pairs l {} h

/-- **A rule has groups for a message exactly when the exception is of its kind and the message, all of it, has the form
of its pattern; they are what the search between both ends of the message finds, the groups that took part in the one
preferred way of the whole message, in the order of the pattern, each a part of the message.** Different groups have
different names. -/
theorem Rule.groups?_wholly (r : Rule) (c : Category) (message : Text) (hnames : r.pattern.names.Nodup) :
    r.groups? c message = (if c.isA r.kind then ((Sought.wholly r.pattern).search message).map Run.groups else none) ∧
    ((r.groups? c message).isSome = true ↔ c.isA r.kind = true ∧ message ∈ r.pattern.language) ∧
    ∀ g, r.groups? c message = some g → (∃! x, r.pattern.Preferred message x ∧ g.pairs = x.groups) ∧
      (g.pairs.map (·.1)).Sublist r.pattern.names ∧ ∀ pair ∈ g.pairs, pair.2 <:+: message := by
  refine ⟨?_, ?_, fun g hg => ?_⟩
  · rw [groups?, r.pattern.groups?_eq_search]
  · rw [groups?]
    split
    next hkind => rw [Pattern.isSome_groups?_iff, and_iff_right hkind]
    next hkind => exact iff_of_false (by simp) fun h => hkind h.1
  · have hpattern : r.pattern.groups? message = some g := by
      rw [groups?] at hg
      split at hg
      · exact hg
      · cases hg
    obtain ⟨x, hx, rfl⟩ := Pattern.groups?_eq_some_iff.mp hpattern
    have hsublist := Pattern.names_groups_sublist hx.fits
    have hpairs := Groups.pairs_ofPairs (hnames.sublist hsublist)
    refine ⟨⟨x, ⟨hx, hpairs⟩, fun y hy => hy.1.unique hx⟩, ?_⟩
    rw [hpairs, ← hx.text_eq]
    exact ⟨hsublist, fun pair hpair => Pattern.infix_of_mem_groups hpair⟩

/-- So it is with the groups of every built-in rule. -/
theorem RuleSet.nodup_names_builtin : ∀ r ∈ RuleSet.builtin.rules, r.pattern.names.Nodup := by decide

/-- The message of a syntax error ends where its place begins, as early as it can. -/
theorem Rule.groups?_wholly_syntaxMessage :
    Catalog.syntaxMessage.pattern.names.Nodup ∧
    ∃ g, Catalog.syntaxMessage.groups? (.ofKind .indentationError) "bad (a.py, line 3)".toList = some g ∧
      g.pairs = [("msg".toList, "bad".toList), ("file".toList, "a.py".toList), ("line".toList, "3".toList)] ∧
      ∃! x, Catalog.syntaxMessage.pattern.Preferred "bad (a.py, line 3)".toList x ∧ g.pairs = x.groups := by
  have hnames := RuleSet.nodup_names_builtin Catalog.syntaxMessage (by simp [RuleSet.builtin])
  have hgroups : (Catalog.syntaxMessage.groups? (.ofKind .indentationError) "bad (a.py, line 3)".toList).map (·.pairs) =
      some [("msg".toList, "bad".toList), ("file".toList, "a.py".toList), ("line".toList, "3".toList)] := by
    decide +kernel
  obtain ⟨g, hg, hpairs⟩ := Option.map_eq_some_iff.mp hgroups
  exact ⟨hnames, g, hg, hpairs, ((groups?_wholly _ _ _ hnames).2.2 g hg).1⟩

end Traceback
