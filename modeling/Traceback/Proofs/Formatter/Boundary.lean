import Traceback.Proofs.Stack

/-! # Boundaries

With a boundary file, what is shown of a stack begins after the first frame in that file. Frames that only raise are
left out before that frame is looked for.

* `after?_append`, `after?_eq_some_iff`: what follows the first element with a property.
* `Formatter.Enters`: whether a frame in the boundary file is left of a stack.
* `Formatter.shown_append`: what is shown of two stacks, one above the other.
* `Formatter.shown_missing_iff`: when the policy for a missing boundary decides nothing.
* `Formatter.missing_matters_inside`: it may decide although the boundary is in the stack.
-/

namespace Traceback
set_option autoImplicit false

/-! ## First elements -/

section First
variable {α : Type} {p : α → Bool} {l : List α}

theorem after?_eq_none_iff : after? p l = none ↔ ∀ a ∈ l, p a = false := by
  induction l with
  | nil => simp [after?]
  | cons a l ih => cases ha : p a <;> simp [after?, ha, ih]

/-- The element at which the rest begins is the first one with the property. -/
theorem after?_eq_some_iff {inner : List α} :
    after? p l = some inner ↔ ∃ outer a, l = outer ++ a :: inner ∧ p a = true ∧ ∀ b ∈ outer, p b = false := by
  induction l with
  | nil => simp [after?]
  | cons a l ih =>
    cases ha : p a with
    | true =>
      rw [after?, if_pos ha]
      constructor
      · intro h
        cases h
        exact ⟨[], a, rfl, ha, by simp⟩
      · rintro ⟨outer, b, hl, -, houter⟩
        cases outer with
        | nil => cases hl; rfl
        | cons c outer =>
          cases hl
          rw [houter a (List.mem_cons_self ..)] at ha
          cases ha
    | false =>
      rw [after?, if_neg (by simp [ha]), ih]
      constructor
      · rintro ⟨outer, b, rfl, hb, houter⟩
        exact ⟨a :: outer, b, rfl, hb, List.forall_mem_cons.mpr ⟨ha, houter⟩⟩
      · rintro ⟨outer, b, hl, hb, houter⟩
        cases outer with
        | nil =>
          cases hl
          rw [hb] at ha
          cases ha
        | cons c outer =>
          cases hl
          exact ⟨outer, b, rfl, hb, (List.forall_mem_cons.mp houter).2⟩

theorem after?_append (more : List α) :
    after? p (l ++ more) = ((after? p l).map (· ++ more)).or (after? p more) := by
  induction l with
  | nil => rfl
  | cons a l ih =>
    rw [List.cons_append, after?, after?]
    split
    · rfl
    · exact ih

end First

namespace Formatter

variable {m : Formatter}

/-! ## Stacks with a boundary -/

/-- Whether a frame in the boundary file is left of the stack when frames that only raise are hidden. -/
def Enters (m : Formatter) (boundary : Text) (stack : List Frame) : Prop :=
  ∃ f ∈ m.withoutRaises stack, m.liesIn boundary f = true

theorem mem_withoutRaises {stack : List Frame} {f : Frame} :
    f ∈ m.withoutRaises stack ↔ f ∈ stack ∧ m.hides f = false := by
  rw [withoutRaises_eq_filter, List.mem_filter, Bool.not_eq_true']

theorem enters_iff {boundary : Text} {stack : List Frame} :
    m.Enters boundary stack ↔ ∃ f ∈ stack, m.liesIn boundary f = true ∧ m.hides f = false := by
  unfold Enters
  simp only [mem_withoutRaises, and_assoc, and_comm]

theorem enters_append_iff {boundary : Text} {stack more : List Frame} :
    m.Enters boundary (stack ++ more) ↔ m.Enters boundary stack ∨ m.Enters boundary more := by
  unfold Enters
  rw [withoutRaises_append]
  simp only [List.mem_append, or_and_right, exists_or]

theorem after?_eq_none_of_not_enters {boundary : Text} {stack : List Frame} (h : ¬ m.Enters boundary stack) :
    after? (m.liesIn boundary) (m.withoutRaises stack) = none :=
  after?_eq_none_iff.mpr fun f hf => Bool.eq_false_iff.mpr fun hin => h ⟨f, hf, hin⟩

theorem exists_after?_of_enters {boundary : Text} {stack : List Frame} (h : m.Enters boundary stack) :
    ∃ inner, after? (m.liesIn boundary) (m.withoutRaises stack) = some inner := by
  obtain ⟨f, hf, hin⟩ := h
  cases hafter : after? (m.liesIn boundary) (m.withoutRaises stack) with
  | some inner => exact ⟨inner, rfl⟩
  | none =>
    rw [after?_eq_none_iff.mp hafter f hf] at hin
    cases hin

theorem withoutRaises_sublist (stack : List Frame) : (m.withoutRaises stack).Sublist stack := by
  rw [withoutRaises_eq_filter]
  exact List.filter_sublist

/-- A frame that is left of a stack splits the stack where it stands. -/
theorem exists_split_of_withoutRaises {stack outer inner : List Frame} {f : Frame}
    (h : m.withoutRaises stack = outer ++ f :: inner) :
    ∃ above below, stack = above ++ f :: below ∧ m.hides f = false ∧ m.withoutRaises above = outer ∧
      m.withoutRaises below = inner := by
  rw [withoutRaises_eq_filter, List.filter_eq_append_iff] at h
  obtain ⟨above, rest, rfl, habove, hrest⟩ := h
  obtain ⟨hidden, below, rfl, hhidden, hf, hbelow⟩ := List.filter_eq_cons_iff.mp hrest
  refine ⟨above ++ hidden, below, by simp, by simpa using hf, ?_, ?_⟩
  · rw [withoutRaises_eq_filter, List.filter_append, habove, List.filter_eq_nil_iff.mpr hhidden, List.append_nil]
  · rw [withoutRaises_eq_filter, hbelow]

section Boundary
variable {boundary : Text} (hboundary : m.settings.boundary = some boundary)
include hboundary

theorem shown_of_boundary (stack : List Frame) : m.shown stack = m.afterBoundary boundary (m.withoutRaises stack) := by
  rw [shown, hboundary]

theorem shown_of_after? {stack inner : List Frame}
    (h : after? (m.liesIn boundary) (m.withoutRaises stack) = some inner) : m.shown stack = inner := by
  rw [shown_of_boundary hboundary, afterBoundary, h]

theorem shown_of_hideAll {stack : List Frame} (h : ¬ m.Enters boundary stack) (hmissing : m.settings.missing = .hideAll) :
    m.shown stack = [] := by
  rw [shown_of_boundary hboundary, afterBoundary, after?_eq_none_of_not_enters h, hmissing]

theorem shown_of_showAll {stack : List Frame} (h : ¬ m.Enters boundary stack) (hmissing : m.settings.missing = .showAll) :
    m.shown stack = m.withoutRaises stack := by
  rw [shown_of_boundary hboundary, afterBoundary, after?_eq_none_of_not_enters h, hmissing]

/-- What is shown is what the first frame in the boundary file that is left calls. -/
theorem exists_first_of_enters {stack : List Frame} (h : m.Enters boundary stack) :
    ∃ outer f inner, stack = outer ++ f :: inner ∧ m.liesIn boundary f = true ∧ m.hides f = false ∧
      ¬ m.Enters boundary outer ∧ m.shown stack = m.withoutRaises inner := by
  obtain ⟨shown, hafter⟩ := exists_after?_of_enters h
  obtain ⟨kept, f, hsplit, hin, hkept⟩ := after?_eq_some_iff.mp hafter
  obtain ⟨outer, inner, hstack, hf, houter, hinner⟩ := exists_split_of_withoutRaises hsplit
  refine ⟨outer, f, inner, hstack, hin, hf, ?_, (shown_of_after? hboundary hafter).trans hinner.symm⟩
  rintro ⟨g, hg, hgin⟩
  rw [hkept g (houter ▸ hg)] at hgin
  cases hgin

theorem shown_append_of_enters {stack : List Frame} (h : m.Enters boundary stack) (more : List Frame) :
    m.shown (stack ++ more) = m.shown stack ++ m.withoutRaises more := by
  obtain ⟨inner, hafter⟩ := exists_after?_of_enters h
  have hwhole : after? (m.liesIn boundary) (m.withoutRaises (stack ++ more)) = some (inner ++ m.withoutRaises more) := by
    rw [withoutRaises_append, after?_append, hafter]
    rfl
  rw [shown_of_after? hboundary hwhole, shown_of_after? hboundary hafter]

theorem shown_append_of_not_enters {stack more : List Frame} (h : ¬ m.Enters boundary stack)
    (hmore : m.Enters boundary more) : m.shown (stack ++ more) = m.shown more := by
  obtain ⟨inner, hafter⟩ := exists_after?_of_enters hmore
  have hwhole : after? (m.liesIn boundary) (m.withoutRaises (stack ++ more)) = some inner := by
    rw [withoutRaises_append, after?_append, after?_eq_none_of_not_enters h, hafter]
    rfl
  rw [shown_of_after? hboundary hwhole, shown_of_after? hboundary hafter]

end Boundary

theorem shown_sublist (stack : List Frame) : (m.shown stack).Sublist stack := by
  cases hboundary : m.settings.boundary with
  | none =>
    rw [shown_of_no_boundary hboundary]
    exact withoutRaises_sublist stack
  | some boundary =>
    by_cases h : m.Enters boundary stack
    · obtain ⟨outer, f, inner, hstack, -, -, -, hshown⟩ := exists_first_of_enters hboundary h
      have hinner : inner.Sublist stack := by
        rw [hstack]
        exact (List.sublist_cons_self f inner).trans (List.sublist_append_right ..)
      rw [hshown]
      exact (withoutRaises_sublist inner).trans hinner
    · cases hmissing : m.settings.missing with
      | hideAll =>
        rw [shown_of_hideAll hboundary h hmissing]
        exact List.nil_sublist _
      | showAll =>
        rw [shown_of_showAll hboundary h hmissing]
        exact withoutRaises_sublist stack

/-- **What is shown of two stacks, one above the other.** Only the first frame in the boundary file that is left
counts: all that is left below it is shown, in the order of the stack, and nothing at it or above. -/
theorem shown_append (m : Formatter) (stack more : List Frame) :
    (m.settings.boundary = none → m.shown (stack ++ more) = m.withoutRaises stack ++ m.withoutRaises more) ∧
    (∀ boundary, m.settings.boundary = some boundary →
      (m.Enters boundary stack → m.shown (stack ++ more) = m.shown stack ++ m.withoutRaises more) ∧
      (¬ m.Enters boundary stack →
        (m.Enters boundary more ∨ m.settings.missing = .hideAll → m.shown (stack ++ more) = m.shown more) ∧
        (¬ m.Enters boundary more → m.settings.missing = .showAll →
          m.shown (stack ++ more) = m.withoutRaises stack ++ m.withoutRaises more)) ∧
      (m.Enters boundary stack → ∃ outer f inner, stack = outer ++ f :: inner ∧ m.liesIn boundary f = true ∧
        m.hides f = false ∧ ¬ m.Enters boundary outer ∧ m.shown stack = m.withoutRaises inner)) ∧
    (m.shown stack).Sublist stack := by
  refine ⟨fun hboundary => ?_, fun boundary hboundary => ⟨?_, fun hstack => ⟨fun hmore => ?_, ?_⟩, ?_⟩,
    shown_sublist stack⟩
  · rw [shown_of_no_boundary hboundary, withoutRaises_append]
  · exact fun hstack => shown_append_of_enters hboundary hstack more
  · by_cases henters : m.Enters boundary more
    · exact shown_append_of_not_enters hboundary hstack henters
    · have hmissing := hmore.resolve_left henters
      have hneither : ¬ m.Enters boundary (stack ++ more) := fun h => (enters_append_iff.mp h).elim hstack henters
      rw [shown_of_hideAll hboundary hneither hmissing, shown_of_hideAll hboundary henters hmissing]
  · intro hmore hmissing
    have hneither : ¬ m.Enters boundary (stack ++ more) := fun h => (enters_append_iff.mp h).elim hstack hmore
    rw [shown_of_showAll hboundary hneither hmissing, withoutRaises_append]
  · exact exists_first_of_enters hboundary

/-! ## Missing boundaries -/

/-- The same settings with another policy for stacks without a frame in the boundary file. -/
def withMissing (m : Formatter) (policy : MissingBoundary) : Formatter :=
  { m with settings := { m.settings with missing := policy } }

/-- **When the policy for a missing boundary decides nothing**: when a frame in the boundary file is left of the stack,
or nothing is. A stack all of whose frames in the boundary file only raise is treated like one without such frames. -/
theorem shown_missing_iff (m : Formatter) (boundary : Text) (stack : List Frame)
    (hboundary : m.settings.boundary = some boundary) :
    ((m.withMissing .hideAll).shown stack = (m.withMissing .showAll).shown stack ↔
      (∃ f ∈ stack, m.liesIn boundary f = true ∧ m.hides f = false) ∨ ∀ f ∈ stack, m.hides f = true) ∧
    ((∀ f ∈ stack, m.liesIn boundary f = true → m.hides f = true) →
      (m.withMissing .hideAll).shown stack = [] ∧ (m.withMissing .showAll).shown stack = m.withoutRaises stack) := by
  have hhide : (m.withMissing .hideAll).settings.boundary = some boundary := hboundary
  have hshow : (m.withMissing .showAll).settings.boundary = some boundary := hboundary
  have hmissing : ¬ m.Enters boundary stack → (m.withMissing .hideAll).shown stack = [] ∧
      (m.withMissing .showAll).shown stack = m.withoutRaises stack :=
    fun h => ⟨shown_of_hideAll hhide h rfl, shown_of_showAll hshow h rfl⟩
  have hnothing : m.withoutRaises stack = [] ↔ ∀ f ∈ stack, m.hides f = true := by
    simp [withoutRaises_eq_filter, List.filter_eq_nil_iff]
  rw [← enters_iff, ← hnothing]
  refine ⟨⟨fun hsame => ?_, fun h => ?_⟩, fun hraising => hmissing ?_⟩
  · by_cases henters : m.Enters boundary stack
    · exact .inl henters
    · obtain ⟨hnone, hall⟩ := hmissing henters
      exact .inr (hall.symm.trans (hsame.symm.trans hnone))
  · by_cases henters : m.Enters boundary stack
    · obtain ⟨inner, hafter⟩ := exists_after?_of_enters henters
      exact (shown_of_after? hhide hafter).trans (shown_of_after? hshow hafter).symm
    · obtain ⟨hnone, hall⟩ := hmissing henters
      rw [hnone, hall, h.resolve_left henters]
  · rw [enters_iff]
    rintro ⟨f, hf, hin, hleft⟩
    rw [hraising f hf hin] at hleft
    cases hleft

/-- A formatter that finds no source lines and shows what a runner runs. -/
def running : Formatter := ⟨{ boundary := some "runner.py".toList }, fun _ _ => none, id, ['/']⟩

def runnerFrame (source : String) : Frame where
  file := "runner.py".toList
  line := 3
  scope := "run".toList
  source := some source.toList

def taskFrame : Frame where
  file := "task.py".toList
  line := 8
  scope := "task".toList
  source := some "    return 1 / 0".toList

theorem shown_missing_iff_runner :
    running.settings.boundary = some "runner.py".toList ∧
      (running.withMissing .hideAll).shown [runnerFrame "    task()", taskFrame] =
        (running.withMissing .showAll).shown [runnerFrame "    task()", taskFrame] ∧
      (running.withMissing .hideAll).shown [runnerFrame "    raise wrapped(task())", taskFrame] = [] := by
  have hcalls : running.liesIn "runner.py".toList (runnerFrame "    task()") = true ∧
      running.hides (runnerFrame "    task()") = false := by decide +kernel
  have hraises : ∀ f ∈ [runnerFrame "    raise wrapped(task())", taskFrame],
      running.liesIn "runner.py".toList f = true → running.hides f = true := by decide +kernel
  exact ⟨rfl,
    (shown_missing_iff running "runner.py".toList [runnerFrame "    task()", taskFrame] rfl).1.mpr
      (.inl ⟨_, List.mem_cons_self .., hcalls⟩),
    ((shown_missing_iff running "runner.py".toList [runnerFrame "    raise wrapped(task())", taskFrame] rfl).2
      hraises).1⟩

/-- When the runner's frame only raises, the policy decides whether its task is shown, although the runner's file is
in the stack. -/
theorem missing_matters_inside :
    ¬ ∀ (m : Formatter) (boundary : Text) (stack : List Frame), m.settings.boundary = some boundary →
      (∃ f ∈ stack, m.liesIn boundary f = true) →
      (m.withMissing .hideAll).shown stack = (m.withMissing .showAll).shown stack := by
  intro h
  have hsame := h running "runner.py".toList [runnerFrame "    raise wrapped(task())", taskFrame] rfl
    ⟨_, List.mem_cons_self .., by decide +kernel⟩
  have hother : (running.withMissing .hideAll).shown [runnerFrame "    raise wrapped(task())", taskFrame] ≠
      (running.withMissing .showAll).shown [runnerFrame "    raise wrapped(task())", taskFrame] := by decide +kernel
  exact hother hsame

end Formatter
end Traceback
