import Traceback.Stack

/-! # Frames that are shown

* `Formatter.withoutRaises_append`, `Formatter.shown_append_of_hides`, `Formatter.shown_append_of_not_hides`: what is left
  of a stack when something is added to it.
* `Formatter.hides`: whether a frame is left out because it only raises.
* `getLast?_innermost`: a limit keeps the last frame.
-/

namespace Traceback
set_option autoImplicit false

theorem getLast?_innermost {α : Type} (limit : Nat) (l : List α) : (innermost limit l).getLast? = l.getLast? := by
  rw [innermost]
  split
  next => rfl
  next hlimit =>
    rw [List.getLast?_drop]
    split
    next hlength =>
      have hnil : l = [] := List.length_eq_zero_iff.mp (by omega)
      rw [hnil, List.getLast?_nil]
    next => rfl

namespace Formatter

variable {m : Formatter}

/-- Whether the settings leave the frame out because it only raises. -/
def hides (m : Formatter) (f : Frame) : Bool := m.settings.hideRaises && m.raises f

theorem withoutRaises_eq_filter (stack : List Frame) : m.withoutRaises stack = stack.filter fun f => !m.hides f := by
  unfold withoutRaises hides
  cases m.settings.hideRaises with
  | false => exact (List.filter_eq_self.mpr fun _ _ => rfl).symm
  | true => rfl

theorem withoutRaises_append (stack more : List Frame) :
    m.withoutRaises (stack ++ more) = m.withoutRaises stack ++ m.withoutRaises more := by
  simp only [withoutRaises_eq_filter, List.filter_append]

section NoBoundary
variable (hboundary : m.settings.boundary = none)
include hboundary

theorem shown_of_no_boundary (stack : List Frame) : m.shown stack = m.withoutRaises stack := by
  rw [shown, hboundary]

theorem hides_of_mem_shown {stack : List Frame} {f : Frame} (hf : f ∈ m.shown stack) : m.hides f = false := by
  rw [shown_of_no_boundary hboundary, withoutRaises_eq_filter, List.mem_filter] at hf
  simpa using hf.2

theorem shown_append_of_hides {f : Frame} (hf : m.hides f = true) (stack : List Frame) :
    m.shown (stack ++ [f]) = m.shown stack := by
  have hnone : m.withoutRaises [f] = [] := by simp [withoutRaises_eq_filter, hf]
  rw [shown_of_no_boundary hboundary, shown_of_no_boundary hboundary, withoutRaises_append, hnone, List.append_nil]

theorem shown_append_of_not_hides {f : Frame} (hf : m.hides f = false) (stack : List Frame) :
    m.shown (stack ++ [f]) = m.shown stack ++ [f] := by
  have hkept : m.withoutRaises [f] = [f] := by simp [withoutRaises_eq_filter, hf]
  rw [shown_of_no_boundary hboundary, shown_of_no_boundary hboundary, withoutRaises_append, hkept]

end NoBoundary
end Formatter
end Traceback
