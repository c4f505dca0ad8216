import Traceback.Exception.Linked

/-! # The way back from an error

* `Linked.previous?`: the error that is shown before an error, and how it is tied to it.
* `Linked.lineage`: all errors met on the way back, oldest first; each is tied to the next.
* `Linked.recount_eq`, `Linked.historyTo_eq`: what a display makes of an error, one step back at a time.
* `Linked.lineage_entries`: the lineage has the errors of the history.
* `Linked.lineage_map`: errors that are changed one by one keep their way back.
* `Linked.withoutHidden`: the same error with its hidden links cut off, at every depth.
-/

namespace Traceback
set_option autoImplicit false

variable {α β : Type}

namespace Linked

/-! ## Steps back -/

/-- The cause if there is one, else the context unless it is hidden. -/
def previous? (l : Linked α) : Option (Linked α × Tie) :=
  match ofLink? l.cause with
  | some earlier => some (earlier, .cause)
  | none => if l.hidesContext then none else (ofLink? l.context).map fun earlier => (earlier, .context)

theorem eq_link_of_ofLink? {k : Link α} {l : Linked α} (h : ofLink? k = some l) : k = l.link := by
  cases k with
  | absent => cases h
  | back error hidesContext cause context =>
    cases h
    rfl

theorem sizeOf_link (l : Linked α) : sizeOf l.link = sizeOf l := by
  cases l
  rfl

/-- An error lies behind one of the two links of the error after it. -/
theorem link_of_previous? {l earlier : Linked α} {tie : Tie} (h : l.previous? = some (earlier, tie)) :
    earlier.link = l.cause ∨ earlier.link = l.context := by
  unfold previous? at h
  split at h
  next found hfound =>
    cases h
    exact Or.inl (eq_link_of_ofLink? hfound).symm
  next =>
    split at h
    · cases h
    · obtain ⟨found, hfound, heq⟩ := Option.map_eq_some_iff.mp h
      cases heq
      exact Or.inr (eq_link_of_ofLink? hfound).symm

theorem sizeOf_previous? {l earlier : Linked α} {tie : Tie} (h : l.previous? = some (earlier, tie)) :
    sizeOf earlier < sizeOf l := by
  rw [← sizeOf_link earlier]
  cases l with
  | mk error hidesContext cause context =>
    simp only [mk.sizeOf_spec]
    rcases link_of_previous? h with hlink | hlink
    · rw [hlink]
      dsimp only
      omega
    · rw [hlink]
      dsimp only
      omega

/-- Induction along the way back. -/
theorem induction_previous {motive : Linked α → Prop}
    (step : ∀ l, (∀ earlier tie, l.previous? = some (earlier, tie) → motive earlier) → motive l) (l : Linked α) :
    motive l :=
  step l fun earlier _ _ => induction_previous step earlier
termination_by sizeOf l
decreasing_by
  rename_i h
  exact sizeOf_previous? h

/-- Goes back from `l`, which is tied to what comes after it by `tie`; `later` has been passed already. -/
def goBack (l : Linked α) (tie : Option Tie) (later : List (Linked α × Option Tie)) :
    List (Linked α × Option Tie) :=
  match _h : l.previous? with
  | none => (l, tie) :: later
  | some (earlier, link) => earlier.goBack (some link) ((l, tie) :: later)
termination_by sizeOf l
decreasing_by exact sizeOf_previous? _h

/-- The errors that are shown, oldest first, each with its tie to the next; the last is the error itself. -/
def lineage (l : Linked α) : List (Linked α × Option Tie) := l.goBack none []

/-! ## One step -/

theorem recount_eq (f : α → Option (β × Tie) → β) (l : Linked α) :
    l.recount f = f l.error (l.previous?.map fun p => (p.1.recount f, p.2)) := by
  obtain ⟨error, hidesContext, cause, context⟩ := l
  cases cause with
  | back => rfl
  | absent =>
    cases hidesContext with
    | true => rfl
    | false => cases context <;> rfl

theorem historyTo_ne_nil (l : Linked α) (tie : Option Tie) : l.link.historyTo tie ≠ [] := by
  rw [link, Link.historyTo]
  exact List.append_ne_nil_of_right_ne_nil _ (List.cons_ne_nil _ _)

theorem historyTo_eq (l : Linked α) (tie : Option Tie) :
    l.link.historyTo tie =
      (l.previous?.elim [] fun p => p.1.link.historyTo (some p.2)) ++ [(l.error, tie)] := by
  obtain ⟨error, hidesContext, cause, context⟩ := l
  rw [link, Link.historyTo]
  congr 1
  cases cause with
  | back error' hidesContext' cause' context' =>
    have hne := historyTo_ne_nil (⟨error', hidesContext', cause', context'⟩ : Linked α) (some .cause)
    split
    next h => exact absurd h hne
    next => rfl
  | absent =>
    cases hidesContext with
    | true => rfl
    | false => cases context <;> rfl

theorem goBack_eq (l : Linked α) (tie : Option Tie) (later : List (Linked α × Option Tie)) :
    l.goBack tie later =
      l.previous?.elim ((l, tie) :: later) fun p => p.1.goBack (some p.2) ((l, tie) :: later) := by
  rw [goBack]
  split
  next h => rw [h]; rfl
  next h => rw [h]; rfl

/-! ## The lineage -/

/-- An error without its links. -/
def entry (p : Linked α × Option Tie) : α × Option Tie := (p.1.error, p.2)

theorem goBack_entries (l : Linked α) (tie : Option Tie) (later : List (Linked α × Option Tie)) :
    (l.goBack tie later).map entry = l.link.historyTo tie ++ later.map entry := by
  induction l using induction_previous generalizing tie later with
  | step l ih =>
    rw [goBack_eq, historyTo_eq]
    cases hprevious : l.previous? with
    | none => rfl
    | some p =>
      have h := ih p.1 p.2 hprevious (some p.2) ((l, tie) :: later)
      rw [List.append_assoc]
      exact h

theorem lineage_entries (l : Linked α) : l.lineage.map entry = l.history := by
  rw [lineage, goBack_entries, List.map_nil, List.append_nil]
  rfl

/-! ## Changing the errors -/

/-- The step back follows the links, whatever errors they lead to. -/
theorem previous?_map (f : α → β) (l : Linked α) :
    (l.map f).previous? = l.previous?.map fun p => (p.1.map f, p.2) := by
  obtain ⟨error, hidesContext, cause, context⟩ := l
  cases cause with
  | back => rfl
  | absent =>
    cases hidesContext with
    | true => rfl
    | false => cases context <;> rfl

theorem goBack_map (f : α → β) (l : Linked α) (tie : Option Tie) (later : List (Linked α × Option Tie)) :
    (l.map f).goBack tie (later.map fun p => (p.1.map f, p.2)) =
      (l.goBack tie later).map fun p => (p.1.map f, p.2) := by
  induction l using induction_previous generalizing tie later with
  | step l ih =>
    rw [goBack_eq, goBack_eq l, previous?_map]
    cases hprevious : l.previous? with
    | none => rfl
    | some p => exact ih p.1 p.2 hprevious (some p.2) ((l, tie) :: later)

theorem lineage_map (f : α → β) (l : Linked α) : (l.map f).lineage = l.lineage.map fun p => (p.1.map f, p.2) :=
  goBack_map f l none []

end Linked

/-! ## Displays of changed errors -/

variable {γ : Type}

theorem Link.recount_map (f : α → β) (g : β → Option (γ × Tie) → γ) (k : Link α) :
    (k.map f).recount g = k.recount fun a => g (f a) := by
  induction k with
  | absent => rfl
  | back error hidesContext cause context ihCause ihContext => rw [map, recount, recount, ihCause, ihContext]

theorem Linked.recount_map (f : α → β) (g : β → Option (γ × Tie) → γ) (l : Linked α) :
    (l.map f).recount g = l.recount fun a => g (f a) :=
  Option.some.inj (Link.recount_map f g l.link)

/-! ## Hidden links -/

/-- The link without what is hidden behind it: a context where there is a cause or the error says so. -/
def Link.withoutHidden : Link α → Link α
  | absent => absent
  | back error hidesContext cause context =>
    back error hidesContext cause.withoutHidden
      (match cause with
        | absent => if hidesContext then absent else context.withoutHidden
        | back .. => absent)

def Linked.withoutHidden (l : Linked α) : Linked α where
  error := l.error
  hidesContext := l.hidesContext
  cause := l.cause.withoutHidden
  context :=
    match l.cause with
    | .absent => if l.hidesContext then .absent else l.context.withoutHidden
    | .back .. => .absent

theorem Link.recount_withoutHidden (f : α → Option (β × Tie) → β) (k : Link α) :
    k.withoutHidden.recount f = k.recount f := by
  induction k with
  | absent => rfl
  | back error hidesContext cause context ihCause ihContext =>
    cases cause with
    | back error' hidesContext' cause' context' =>
      have h : (back error hidesContext (back error' hidesContext' cause' context') context).withoutHidden =
        back error hidesContext (back error' hidesContext' cause' context').withoutHidden absent := rfl
      rw [h, recount, ihCause]
      rfl
    | absent =>
      cases hidesContext with
      | true => rfl
      | false =>
        have h : (back error false absent context).withoutHidden = back error false absent context.withoutHidden := rfl
        rw [h, recount, ihContext]
        rfl

theorem Linked.recount_withoutHidden (f : α → Option (β × Tie) → β) (l : Linked α) :
    l.withoutHidden.recount f = l.recount f :=
  Option.some.inj (Link.recount_withoutHidden f l.link)

end Traceback
