import Mathlib.Computability.Language
import Traceback.Pattern.Basic

/-! # The texts of a pattern

* `Pattern.language`: the texts that have the form of a pattern.
* `Way`: a way in which a text has that form, with the alternatives taken and the groups entered.
* `mem_language_iff`: the texts of a pattern are those of its ways.
* `Way.groups`: the groups that took part; they stand in the order of the pattern, each a part of the text.
-/

namespace Traceback.Pattern
set_option autoImplicit false

/-! ## Texts -/

def language : Pattern → Language Char
  | nothing => 1
  | one s => {t | ∃ c, s.mem c = true ∧ t = [c]}
  | seq first second => first.language * second.language
  | alt first second => first.language + second.language
  | optional p => p.language + 1
  | many _ least s => {t | least ≤ t.length ∧ ∀ c ∈ t, s.mem c = true}
  | named _ p => p.language

/-! ## Ways -/

/-- A choice for each part of a pattern: the character, the alternative, whether an optional part is there, and the
repeated characters. -/
inductive Way where
  | nothing
  | one (c : Char)
  | seq (first second : Way)
  | left (way : Way)
  | right (way : Way)
  | present (way : Way)
  | absent
  | many (t : Text)
  | named (name : Text) (way : Way)
  deriving DecidableEq

namespace Way

def text : Way → Text
  | nothing | absent => []
  | one c => [c]
  | seq first second => first.text ++ second.text
  | left x | right x | present x | named _ x => x.text
  | many t => t

/-- The groups that took part, by name, with their texts. -/
def groups : Way → List (Text × Text)
  | nothing | absent | one _ | many _ => []
  | seq first second => first.groups ++ second.groups
  | left x | right x | present x => x.groups
  | named name x => (name, x.text) :: x.groups

end Way

/-- Whether the choices are ones that the pattern leaves open. -/
inductive Fits : Pattern → Way → Prop where
  | nothing : Fits nothing .nothing
  | one {s : CharSet} {c : Char} (hc : s.mem c = true) : Fits (one s) (.one c)
  | seq {first second : Pattern} {x y : Way} (hx : first.Fits x) (hy : second.Fits y) :
      Fits (seq first second) (.seq x y)
  | left {first second : Pattern} {x : Way} (hx : first.Fits x) : Fits (alt first second) (.left x)
  | right {first second : Pattern} {x : Way} (hx : second.Fits x) : Fits (alt first second) (.right x)
  | present {p : Pattern} {x : Way} (hx : p.Fits x) : Fits (optional p) (.present x)
  | absent {p : Pattern} : Fits (optional p) .absent
  | many {greedy : Bool} {least : Nat} {s : CharSet} {t : Text} (hlength : least ≤ t.length)
      (ht : ∀ c ∈ t, s.mem c = true) : Fits (many greedy least s) (.many t)
  | named {name : Text} {p : Pattern} {x : Way} (hx : p.Fits x) : Fits (named name p) (.named name x)

theorem mem_language_of_fits {p : Pattern} {x : Way} (h : p.Fits x) : x.text ∈ p.language := by
  induction h with
  | nothing => exact Language.nil_mem_one
  | one hc => exact ⟨_, hc, rfl⟩
  | seq _ _ hx hy => exact Language.append_mem_mul hx hy
  | left _ ih => exact Or.inl ih
  | right _ ih => exact Or.inr ih
  | present _ ih => exact Or.inl ih
  | absent => exact Or.inr Language.nil_mem_one
  | many hlength ht => exact ⟨hlength, ht⟩
  | named _ ih => exact ih

theorem exists_fits_of_mem {p : Pattern} {t : Text} (h : t ∈ p.language) : ∃ x, p.Fits x ∧ x.text = t := by
  induction p generalizing t with
  | nothing => exact ⟨.nothing, .nothing, (Language.mem_one t).mp h |>.symm⟩
  | one s =>
    obtain ⟨c, hc, rfl⟩ := h
    exact ⟨.one c, .one hc, rfl⟩
  | seq first second ihFirst ihSecond =>
    obtain ⟨a, ha, b, hb, rfl⟩ := Language.mem_mul.mp h
    obtain ⟨x, hx, rfl⟩ := ihFirst ha
    obtain ⟨y, hy, rfl⟩ := ihSecond hb
    exact ⟨.seq x y, .seq hx hy, rfl⟩
  | alt first second ihFirst ihSecond =>
    rcases (Language.mem_add _ _ t).mp h with h | h
    · obtain ⟨x, hx, rfl⟩ := ihFirst h
      exact ⟨.left x, .left hx, rfl⟩
    · obtain ⟨x, hx, rfl⟩ := ihSecond h
      exact ⟨.right x, .right hx, rfl⟩
  | optional p ih =>
    rcases (Language.mem_add _ _ t).mp h with h | h
    · obtain ⟨x, hx, rfl⟩ := ih h
      exact ⟨.present x, .present hx, rfl⟩
    · exact ⟨.absent, .absent, ((Language.mem_one t).mp h).symm⟩
  | many greedy least s => exact ⟨.many t, .many h.1 h.2, rfl⟩
  | named name p ih =>
    obtain ⟨x, hx, rfl⟩ := ih h
    exact ⟨.named name x, .named hx, rfl⟩

/-- **A text has the form of a pattern when there is a way for it to.** -/
theorem mem_language_iff {p : Pattern} {t : Text} : t ∈ p.language ↔ ∃ x, p.Fits x ∧ x.text = t := by
  refine ⟨exists_fits_of_mem, ?_⟩
  rintro ⟨x, hx, rfl⟩
  exact mem_language_of_fits hx

/-! ## Groups -/

/-- The names of the groups, in the order in which the groups begin. -/
def names : Pattern → List Text
  | nothing | one _ | many .. => []
  | seq first second | alt first second => first.names ++ second.names
  | optional p => p.names
  | named name p => name :: p.names

theorem names_groups_sublist {p : Pattern} {x : Way} (h : p.Fits x) : (x.groups.map (·.1)).Sublist p.names := by
  induction h with
  | nothing | one | absent | many => exact List.nil_sublist _
  | seq _ _ hx hy =>
    rw [Way.groups, List.map_append]
    exact hx.append hy
  | left _ ih => exact ih.trans (List.sublist_append_left ..)
  | right _ ih => exact ih.trans (List.sublist_append_right ..)
  | present _ ih => exact ih
  | named _ ih => exact ih.cons_cons _

theorem infix_of_mem_groups {x : Way} {pair : Text × Text} (h : pair ∈ x.groups) : pair.2 <:+: x.text := by
  induction x with
  | nothing | one | absent | many => cases h
  | seq first second ihFirst ihSecond =>
    rcases List.mem_append.mp h with h | h
    · exact (ihFirst h).trans (List.prefix_append ..).isInfix
    · exact (ihSecond h).trans (List.suffix_append ..).isInfix
  | left _ ih | right _ ih | present _ ih => exact ih h
  | named name x ih =>
    rcases List.mem_cons.mp h with rfl | h
    · exact List.infix_refl _
    · exact ih h

end Traceback.Pattern
