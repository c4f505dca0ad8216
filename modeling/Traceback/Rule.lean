import Traceback.Exception.Category
import Traceback.Pattern.Basic

/-! # Rules

A rule restates the messages of one kind of exception that have one form.

* `Rule.groups?`: the groups of a message that the rule applies to.
* `RuleSet.classify`: the restatement by the first rule that applies, or the message as it is.
-/

namespace Traceback
set_option autoImplicit false

structure Rule where
  name : Text
  /-- The rule applies to exceptions of this kind. -/
  kind : Kind
  /-- The form of the whole message. -/
  pattern : Pattern
  restate : Groups → Text

/-- The groups of the message when the rule applies. -/
def Rule.groups? (r : Rule) (c : Category) (message : Text) : Option Groups :=
  if c.isA r.kind then r.pattern.groups? message else none

/-- What is made of a message; `rule` names the rule that applied. -/
structure Classification where
  rule : Option Text
  groups : Groups
  message : Text
  deriving DecidableEq, Repr

/-- Rules in order of precedence. -/
structure RuleSet where
  rules : List Rule := []

namespace RuleSet

/-- The rules with one more, of the lowest precedence. -/
def push (s : RuleSet) (r : Rule) : RuleSet := ⟨s.rules ++ [r]⟩

/-- The first rule of that name. -/
def get? (s : RuleSet) (name : Text) : Option Rule := s.rules.find? fun r => r.name = name

def classifyBy (c : Category) (message : Text) : List Rule → Classification
  | [] => ⟨none, {}, message⟩
  | r :: rules =>
    match r.groups? c message with
    | some groups => ⟨some r.name, groups, r.restate groups⟩
    | none => classifyBy c message rules

/-- A rule that does not apply leaves the message to the rules after it. -/
theorem classifyBy_cons (c : Category) (message : Text) (r : Rule) (rules : List Rule) :
    classifyBy c message (r :: rules) =
      match r.groups? c message with
      | some groups => ⟨some r.name, groups, r.restate groups⟩
      | none => classifyBy c message rules :=
  rfl

def classify (s : RuleSet) (c : Category) (message : Text) : Classification := classifyBy c message s.rules

end RuleSet
end Traceback
