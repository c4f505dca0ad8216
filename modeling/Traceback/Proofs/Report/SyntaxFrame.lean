import Traceback.Catalog
import Traceback.Proofs.Stack
import Traceback.Report

/-! # The frame of faulty source code

An error about source code has a frame of its own, which comes after those of the calls. Without a boundary it is the
last one shown, under every limit, unless the settings hide it because its statement only raises.

* `Restated.frames_of_location`: the frame stands last in the stack.
* `Report.location_shown_last`: it is shown last, or left out like a call that only raises.
* `Report.location_not_always_shown`: what is left out may be all that told the place of the error.
-/

namespace Traceback
set_option autoImplicit false

theorem Restated.frames_of_location (rules : RuleSet) {r : Raised} {l : SyntaxLocation} (hl : r.location = some l) :
    (Restated.ofRaised rules r).frames = r.frames ++ [Frame.ofSyntaxLocation l] := by
  rw [Restated.ofRaised, Raised.allFrames, hl]

namespace Report

/-- **The place of an error in source code is shown last** when there is no boundary, whatever the limit is. Only when
frames that do nothing but raise are hidden, and its statement is found to do nothing else, is it left out, and what is
shown is what would be shown without it. -/
theorem location_shown_last (m : Formatter) (rules : RuleSet) (e : Exception) (l : SyntaxLocation) (limit : Nat)
    (hl : e.error.location = some l) (hboundary : m.settings.boundary = none) :
    let f := Frame.ofSyntaxLocation l
    let r := (ofException rules e).error
    ((m.settings.hideRaises = false ∨ m.raises f = false) →
      (m.shown r.frames).getLast? = some f ∧ f ∈ innermost limit (m.shown r.frames) ∧
        (r.frameTexts m limit).getLast? = some (m.format f)) ∧
    (m.settings.hideRaises = true → m.raises f = true →
      m.shown r.frames = m.shown e.error.frames ∧ f ∉ m.shown r.frames) := by
  intro f r
  have hframes : r.frames = e.error.frames ++ [f] := Restated.frames_of_location rules hl
  constructor
  · intro hkept
    have hhides : m.hides f = false := by
      rcases hkept with hkept | hkept <;> simp [Formatter.hides, hkept]
    have hlast : (innermost limit (m.shown r.frames)).getLast? = some f := by
      rw [getLast?_innermost, hframes, Formatter.shown_append_of_not_hides hboundary hhides, List.getLast?_concat]
    refine ⟨(getLast?_innermost limit _).symm.trans hlast, List.mem_of_getLast? hlast, ?_⟩
    rw [Restated.frameTexts, List.getLast?_map, hlast]
    rfl
  · intro hhide hraises
    have hhides : m.hides f = true := by simp [Formatter.hides, hhide, hraises]
    refine ⟨?_, fun hshown => ?_⟩
    · rw [hframes, Formatter.shown_append_of_hides hboundary hhides]
    · have hfalse := Formatter.hides_of_mem_shown hboundary hshown
      rw [hhides] at hfalse
      cases hfalse

/-- A formatter that finds no source lines. -/
def withoutSources : Formatter := ⟨{}, fun _ _ => none, id, ['/']⟩

/-- `x = = 1`, at the second sign. -/
def doubleSign : SyntaxLocation where
  file := "<string>".toList
  line := 1
  offset := some 5
  text := some "x = = 1\n".toList

/-- A statement that is indented where nothing is. -/
def indentedRaise : SyntaxLocation where
  file := "<string>".toList
  line := 2
  offset := some 4
  text := some "    raise ValueError(x)\n".toList

def unexpected (l : SyntaxLocation) : Exception where
  error :=
    { typeName := "SyntaxError".toList
      bases := ["Exception".toList]
      message := "unexpected".toList
      frames := [{ file := "runner.py".toList, line := 12, scope := "run".toList }]
      location := some l }

theorem location_shown_last_doubleSign :
    (unexpected doubleSign).error.location = some doubleSign ∧ withoutSources.settings.boundary = none ∧
      withoutSources.raises (Frame.ofSyntaxLocation doubleSign) = false ∧
      withoutSources.raises (Frame.ofSyntaxLocation indentedRaise) = true ∧
      Frame.ofSyntaxLocation doubleSign ∈
        innermost 1 (withoutSources.shown (ofException .builtin (unexpected doubleSign)).error.frames) ∧
      Frame.ofSyntaxLocation indentedRaise ∉
        withoutSources.shown (ofException .builtin (unexpected indentedRaise)).error.frames := by
  have hshown : withoutSources.raises (Frame.ofSyntaxLocation doubleSign) = false := by decide +kernel
  have hhidden : withoutSources.raises (Frame.ofSyntaxLocation indentedRaise) = true := by decide +kernel
  exact ⟨rfl, rfl, hshown, hhidden,
    ((location_shown_last withoutSources .builtin (unexpected doubleSign) doubleSign 1 rfl rfl).1 (.inr hshown)).2.1,
    ((location_shown_last withoutSources .builtin (unexpected indentedRaise) indentedRaise 0 rfl rfl).2 rfl hhidden).2⟩

/-- Where an indent is unexpected and the statement after it raises, the place is not shown. -/
theorem location_not_always_shown :
    ¬ ∀ (m : Formatter) (rules : RuleSet) (e : Exception) (l : SyntaxLocation), e.error.location = some l →
      m.settings.boundary = none →
      (m.shown (ofException rules e).error.frames).getLast? = some (Frame.ofSyntaxLocation l) := by
  intro h
  have hlast := h withoutSources .builtin (unexpected indentedRaise) indentedRaise rfl rfl
  have hother : (withoutSources.shown (ofException .builtin (unexpected indentedRaise)).error.frames).getLast? ≠
      some (Frame.ofSyntaxLocation indentedRaise) := by decide +kernel
  exact hother hlast

end Report
end Traceback
