/-! # Linked errors

An error may have a cause, named when it was raised, and a context, which was being handled at that moment.
Both are errors with links of their own.

* `Linked`: an error with its two links.
* `Linked.recount`: what a display makes of an error and of the errors before it.
* `Linked.history`: the errors that are shown, oldest first, each with its tie to the next.
-/

namespace Traceback
set_option autoImplicit false

/-- A link to an earlier error, if there is one. -/
inductive Link (α : Type) where
  | absent
  | back (error : α) (hidesContext : Bool) (cause context : Link α)
  deriving DecidableEq, Repr

structure Linked (α : Type) where
  error : α
  hidesContext : Bool := false
  cause : Link α := .absent
  context : Link α := .absent
  deriving DecidableEq, Repr

/-- How an earlier error is tied to a later one. -/
inductive Tie where
  | cause | context
  deriving DecidableEq, Repr

namespace Link

variable {α β : Type}

def map (f : α → β) : Link α → Link β
  | absent => absent
  | back error hidesContext cause context => back (f error) hidesContext (cause.map f) (context.map f)

/-- What `f` makes of the error and of what it made of the error before it, the cause being followed back
before the context. -/
def recount (f : α → Option (β × Tie) → β) : Link α → Option β
  | absent => none
  | back error hidesContext cause context =>
    some <| f error <|
      match cause.recount f with
      | some earlier => some (earlier, .cause)
      | none => if hidesContext then none else (context.recount f).map fun earlier => (earlier, .context)

/-- The errors from the oldest that is shown up to this one, each with its tie to the next; `tie` goes with
the last. -/
def historyTo (tie : Option Tie) : Link α → List (α × Option Tie)
  | absent => []
  | back error hidesContext cause context =>
    (match cause.historyTo (some .cause) with
      | [] => if hidesContext then [] else context.historyTo (some .context)
      | earlier => earlier) ++ [(error, tie)]

end Link

namespace Linked

variable {α β : Type}

def map (f : α → β) (l : Linked α) : Linked β := ⟨f l.error, l.hidesContext, l.cause.map f, l.context.map f⟩

/-- The error as the end of a link. -/
def link (l : Linked α) : Link α := .back l.error l.hidesContext l.cause l.context

/-- The error at the end of a link. -/
def ofLink? : Link α → Option (Linked α)
  | .absent => none
  | .back error hidesContext cause context => some ⟨error, hidesContext, cause, context⟩

/-- What `f` makes of the error, given what it made of the shown error before it and the tie between them. -/
def recount (f : α → Option (β × Tie) → β) (l : Linked α) : β :=
  f l.error <|
    match l.cause.recount f with
    | some earlier => some (earlier, .cause)
    | none => if l.hidesContext then none else (l.context.recount f).map fun earlier => (earlier, .context)

/-- The errors that are shown, oldest first, each with its tie to the next. -/
def history (l : Linked α) : List (α × Option Tie) := l.link.historyTo none

end Linked
end Traceback
