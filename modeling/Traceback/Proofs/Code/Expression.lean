import Traceback.Proofs.Code.Reads

/-! # The tokens of expressions

What the parser says of an expression is where some of the tokens start and stop that it has read for it.

* `Node.Spans`: the tokens of an expression, with the places that its shape tells.
* `Node.Fills`: tokens that begin at a place and end with an expression and brackets that close groupings of it.
* `ReadsNode`, `Completes`: that a parser reads an expression, or the rest of one.
* `Reading`: all functions of the parser with the same fuel; `reading` is the induction on the fuel.
-/

namespace Traceback.Code
set_option autoImplicit false
set_option synthInstance.maxSize 4000

/-! ## Expressions -/

def Closers (ts : List Token) : Prop := ∀ t ∈ ts, t.lexeme = .closing .round

/-- The first token starts at `start`, and an expression may begin with it. -/
def Begins (start : Nat) (ts : List Token) : Prop :=
  ∃ t more, ts = t :: more ∧ t.start = start ∧ startsExpression t.lexeme = true

/-- An operation is its left operand, which stops at `left`, and what follows it, with the right operand, which starts
at `right`. -/
def IsOperation (ts : List Token) (left right : Nat) : Prop :=
  ∃ start operand rest, ts = operand ++ rest ∧ Begins start operand ∧ endOf operand = left ∧ ∃ t ∈ rest, t.start = right

/-- A subscript is its value, which stops at `base`, brackets that close groupings of the value, and its own brackets. -/
def IsSubscript (ts : List Token) (base : Nat) : Prop :=
  ∃ start value closers opening inside closing, ts = value ++ closers ++ opening :: inside ++ [closing] ∧
    Begins start value ∧ endOf value = base ∧ Closers closers ∧ opening.lexeme = .opening .square ∧
    closing.lexeme = .closing .square

/-- `ts` are the tokens of `e`. -/
structure Node.Spans (e : Node) (ts : List Token) : Prop where
  start_mem : ∃ t ∈ ts, t.start = e.start
  stop_eq : endOf ts = e.stop
  operation : ∀ left right, e.shape = .operation left right → IsOperation ts left right
  subscript : ∀ base, e.shape = .subscript base → IsSubscript ts base

/-- `ts` end with `e` and brackets that close groupings of it. -/
def Node.Ends (e : Node) (ts : List Token) : Prop :=
  ∃ front core closers, ts = front ++ core ++ closers ∧ Closers closers ∧ e.Spans core

/-- `ts` begin at `start` and end with `e`. -/
def Node.Fills (start : Nat) (e : Node) (ts : List Token) : Prop := Begins start ts ∧ e.Ends ts

theorem Begins.append {start : Nat} {ts : List Token} (h : Begins start ts) (more : List Token) :
    Begins start (ts ++ more) := by
  obtain ⟨t, rest, rfl, hstart, hl⟩ := h
  exact ⟨t, rest ++ more, rfl, hstart, hl⟩

theorem Begins.ne_nil {start : Nat} {ts : List Token} (h : Begins start ts) : ts ≠ [] := by
  obtain ⟨t, rest, rfl, -⟩ := h
  exact List.cons_ne_nil t rest

theorem Begins.of_append {start : Nat} {ts more : List Token} (h : Begins start (ts ++ more)) (hne : ts ≠ []) :
    Begins start ts := by
  obtain ⟨t, rest, hts, hstart, hl⟩ := h
  cases ts with
  | nil => exact absurd rfl hne
  | cons u ts =>
    cases hts
    exact ⟨_, ts, rfl, hstart, hl⟩

theorem Begins.start_mem {start : Nat} {ts : List Token} (h : Begins start ts) : ∃ t ∈ ts, t.start = start := by
  obtain ⟨t, rest, rfl, hstart, -⟩ := h
  exact ⟨t, List.mem_cons_self, hstart⟩

theorem begins_of_singleAt {start : Nat} {l : Lexeme} {ts : List Token} (hl : startsExpression l = true)
    (h : SingleAt start l ts) : Begins start ts := by
  obtain ⟨t, rfl, hstart, rfl⟩ := h
  exact ⟨t, [], rfl, hstart, hl⟩

theorem begins_of_behind {start : Nat} {since since' : List Token → Prop} (hsince : ∀ ts, since ts → Begins start ts)
    {ts : List Token} (h : Behind since since' ts) : Begins start ts := by
  obtain ⟨first, more, rfl, hfirst, -⟩ := h
  exact (hsince first hfirst).append more

theorem Node.Spans.ne_nil {e : Node} {ts : List Token} (h : e.Spans ts) : ts ≠ [] := by
  obtain ⟨t, ht, -⟩ := h.start_mem
  exact List.ne_nil_of_mem ht

theorem Node.Spans.ends {e : Node} {ts : List Token} (h : e.Spans ts) : e.Ends ts :=
  ⟨[], ts, [], by simp, fun _ h => absurd h List.not_mem_nil, h⟩

theorem Node.Ends.append_left {e : Node} {ts : List Token} (h : e.Ends ts) (more : List Token) : e.Ends (more ++ ts) := by
  obtain ⟨front, core, closers, rfl, hclosers, hcore⟩ := h
  exact ⟨more ++ front, core, closers, by simp only [List.append_assoc], hclosers, hcore⟩

/-- A bracket that closes a grouping of an expression is no part of it. -/
theorem Node.Ends.close {e : Node} {ts : List Token} {t : Token} (h : e.Ends ts) (ht : t.lexeme = .closing .round) :
    e.Ends (ts ++ [t]) := by
  obtain ⟨front, core, closers, rfl, hclosers, hcore⟩ := h
  refine ⟨front, core, closers ++ [t], List.append_assoc .., fun u hu => ?_, hcore⟩
  rcases List.mem_append.mp hu with hu | hu
  · exact hclosers u hu
  · rw [List.mem_singleton.mp hu, ht]

/-- Whether it is told that an expression is grouped or assignable does not move it. -/
theorem Node.Fills.of_places {start : Nat} {e e' : Node} {ts : List Token} (h : e.Fills start ts)
    (hshape : e'.shape = e.shape) (hstart : e'.start = e.start) (hstop : e'.stop = e.stop) : e'.Fills start ts := by
  obtain ⟨hbegins, front, core, closers, rfl, hclosers, hcore⟩ := h
  refine ⟨hbegins, front, core, closers, rfl, hclosers, ?_, ?_, ?_, ?_⟩
  · rw [hstart]; exact hcore.start_mem
  · rw [hstop]; exact hcore.stop_eq
  · rw [hshape]; exact hcore.operation
  · rw [hshape]; exact hcore.subscript

theorem Node.fills_of_behind {e : Node} {start : Nat} {ts : List Token}
    (h : Behind (Begins start) (fun more => ∃ s, e.Fills s more) ts) : e.Fills start ts := by
  obtain ⟨first, more, rfl, hfirst, s, -, hends⟩ := h
  exact ⟨hfirst.append more, hends.append_left first⟩

theorem Node.isOperation_of_fills {left right : Node} {start s : Nat} {ts between more : List Token}
    (hleft : left.Fills start ts) (hright : right.Fills s more) :
    IsOperation (ts ++ (between ++ more)) left.stop right.start := by
  obtain ⟨hbegins, front, core, closers, rfl, -, hcore⟩ := hleft
  obtain ⟨-, front', core', closers', rfl, -, hcore'⟩ := hright
  obtain ⟨t, ht, hstart⟩ := hcore'.start_mem
  have hne : front ++ core ≠ [] := List.append_ne_nil_of_right_ne_nil _ hcore.ne_nil
  refine ⟨start, front ++ core, closers ++ (between ++ (front' ++ core' ++ closers')), by simp only [List.append_assoc],
    hbegins.of_append hne, ?_, t, by simp [ht], hstart⟩
  rw [endOf_append _ hcore.ne_nil, hcore.stop_eq]

theorem Node.isSubscript_of_fills {value : Node} {start : Nat} {ts inside : List Token} {opening closing : Token}
    (hvalue : value.Fills start ts) (hopening : opening.lexeme = .opening .square)
    (hclosing : closing.lexeme = .closing .square) :
    IsSubscript (ts ++ opening :: inside ++ [closing]) value.stop := by
  obtain ⟨hbegins, front, core, closers, rfl, hclosers, hcore⟩ := hvalue
  have hne : front ++ core ≠ [] := List.append_ne_nil_of_right_ne_nil _ hcore.ne_nil
  refine ⟨start, front ++ core, closers, opening, inside, closing, rfl, hbegins.of_append hne, ?_, hclosers, hopening,
    hclosing⟩
  rw [endOf_append _ hcore.ne_nil, hcore.stop_eq]

def Shape.tellsPlaces : Shape → Bool
  | .operation _ _ | .subscript _ => true
  | _ => false

/-- Shapes that tell no places. -/
class Shape.Plain (s : Shape) : Prop where
  tellsPlaces : s.tellsPlaces = false

section Plain
variable {s : Shape}

theorem Shape.Plain.ne_operation (h : s.Plain) (left right : Nat) : s ≠ .operation left right := by
  rintro rfl
  cases h.tellsPlaces

theorem Shape.Plain.ne_subscript (h : s.Plain) (base : Nat) : s ≠ .subscript base := by
  rintro rfl
  cases h.tellsPlaces

instance : Shape.Plain .name := ⟨rfl⟩

instance : Shape.Plain .starred := ⟨rfl⟩

instance (bare : Bool) : Shape.Plain (.tuple bare) := ⟨rfl⟩

instance (bare : Bool) : Shape.Plain (.generator bare) := ⟨rfl⟩

instance : Shape.Plain .lambda := ⟨rfl⟩

instance : Shape.Plain .named := ⟨rfl⟩

instance : Shape.Plain .conditional := ⟨rfl⟩

instance : Shape.Plain .logic := ⟨rfl⟩

instance : Shape.Plain .other := ⟨rfl⟩

end Plain

/-- `p` reads an expression. -/
class ReadsNode (p : Parse Node) : Prop where
  reads : ∀ before, Reads before p fun e => Behind before fun ts => ∃ start, e.Fills start ts

/-- `p` reads the rest of an expression whose first token starts at `start`. -/
class Completes (start : Nat) (p : Parse Node) : Prop where
  reads : ∀ before, Reads (Behind before (Begins start)) p fun e => Behind before (e.Fills start)

section Nodes
variable {before : List Token → Prop} {start : Nat} {p : Parse Node}

instance [h : ReadsNode p] : Steps p := (h.reads fun _ => True).steps

theorem reads_target (shape : Shape) (start : Nat) (assignable : Bool) :
    Reads before (Parse.target shape start assignable) fun e read =>
      (e.shape = shape ∧ e.start = start ∧ e.stop = endOf read) ∧ before read := by
  unfold Parse.target
  exact reads_last.bind fun stop => Reads.pure fun read h => ⟨⟨rfl, rfl, h.1⟩, h.2⟩

/-- What has been begun at `start` becomes one expression, of the shape that it is. -/
theorem completes_target {shape : Shape} {assignable : Bool} {since : List Token → Prop}
    (hsince : ∀ ts, since ts → Begins start ts) (hoperation : ∀ ts left right, since ts → shape = .operation left right →
      IsOperation ts left right) (hsubscript : ∀ ts base, since ts → shape = .subscript base → IsSubscript ts base) :
    Reads (Behind before since) (Parse.target shape start assignable) fun e => Behind before (e.Fills start) := by
  refine (reads_target shape start assignable).mono ?_
  rintro e read ⟨⟨hshape, hstart, hstop⟩, first, ts, rfl, hfirst, hts⟩
  have hbegins := hsince ts hts
  rw [endOf_append _ hbegins.ne_nil] at hstop
  refine ⟨first, ts, rfl, hfirst, hbegins, Node.Spans.ends ⟨hstart ▸ hbegins.start_mem, hstop.symm, ?_, ?_⟩⟩
  · rw [hshape]
    exact fun left right => hoperation ts left right hts
  · rw [hshape]
    exact fun base => hsubscript ts base hts

instance (shape : Shape) [h : shape.Plain] (assignable : Bool) : Completes start (Parse.target shape start assignable) :=
  ⟨fun _ => completes_target (fun _ h => h) (fun _ left right _ heq => absurd heq (h.ne_operation left right))
    fun _ base _ heq => absurd heq (h.ne_subscript base)⟩

instance (shape : Shape) [shape.Plain] : Completes start (Parse.node shape start) :=
  inferInstanceAs (Completes start (Parse.target shape start false))

/-- A step behind the beginning of an expression does not change where it begins. -/
theorem Completes.seq {α : Type} {p : Parse α} [Steps p] {f : α → Parse Node}
    (hf : ∀ a, Completes start (f a)) : Completes start (p >>= f) := by
  refine ⟨fun before => (Steps.frame _).bind fun a => ((hf a).reads before).of_before fun read h => ?_⟩
  exact h.assoc.mono fun _ => begins_of_behind fun _ h => h

instance {α : Type} {p : Parse α} [Steps p] {f : α → Parse Node} [hf : ∀ a, Completes start (f a)] :
    Completes start (p >>= f) := .seq hf

instance : Completes start failure := ⟨fun _ => Reads.failure⟩

instance {c : Prop} [Decidable c] {q : Parse Node} [hp : Completes start p] [hq : Completes start q] :
    Completes start (if c then p else q) :=
  ⟨fun before => Reads.ite (fun _ => hp.reads before) fun _ => hq.reads before⟩

theorem Completes.of_begun [h : Completes start p] {pre : List Token → Prop}
    (hpre : ∀ read, pre read → Behind before (Begins start) read) :
    Reads pre p fun e => Behind before (e.Fills start) :=
  (h.reads before).of_before hpre

theorem Completes.of_fills [Completes start p] (e : Node) :
    Reads (Behind before (e.Fills start)) p fun e => Behind before (e.Fills start) :=
  Completes.of_begun fun _ h => h.mono fun _ h => h.1

theorem Completes.onward [Completes start p] {since since' : List Token → Prop}
    (hsince : ∀ ts, since ts → Begins start ts) :
    Reads (Behind (Behind before since) since') p fun e => Behind before (e.Fills start) :=
  Completes.of_begun fun _ h => h.assoc.mono fun _ h => begins_of_behind hsince h

theorem Completes.of_singleAt [Completes start p] {l : Lexeme} (hl : startsExpression l = true) :
    Reads (Behind before (SingleAt start l)) p fun e => Behind before (e.Fills start) :=
  Completes.of_begun fun _ h => h.mono fun _ => begins_of_singleAt hl

instance [h : ReadsNode p] : Completes start p :=
  ⟨fun _ => (h.reads _).mono fun _ _ h => h.assoc.mono fun _ => Node.fills_of_behind⟩

theorem ReadsNode.bind_begun [ReadsNode p] {β : Type} {f : Node → Parse β} {result : β → List Token → Prop}
    (hf : ∀ e, Reads (Behind before (e.Fills start)) (f e) result) :
    Reads (Behind before (Begins start)) (p >>= f) result :=
  (Completes.reads before).bind hf

/-- What is read first begins where the next token starts. -/
theorem readsNode_here {f : Nat → Parse Node}
    (h : ∀ start l before, ReadsNext start l before (f start) fun e => Behind before (e.Fills start)) :
    ReadsNode (Parse.here >>= f) := by
  refine ⟨fun before => Reads.here fun start l => (h start l before).mono fun _ _ h => ?_⟩
  exact h.mono fun _ h => ⟨start, h⟩

theorem ReadsNext.first {l : Lexeme} (hl : startsExpression l = true) {f : Unit → Parse Node}
    (hf : Completes start (f ())) :
    ReadsNext start l before (Parse.advance >>= f) fun e => Behind before (e.Fills start) :=
  (readsNext_advance start l).bind fun _ => Completes.of_singleAt hl

theorem ReadsNext.begun {α : Type} {l : Lexeme} (hl : startsExpression l = true) {f : Unit → Parse α}
    [hf : Steps (f ())] : ReadsNext start l before (Parse.advance >>= f) fun _ => Behind before (Begins start) := by
  refine (readsNext_advance start l).bind fun _ => (Steps.frame _).mono fun _ _ h => ?_
  exact h.assoc.mono fun _ => begins_of_behind fun _ => begins_of_singleAt hl

theorem ReadsNext.node [h : ReadsNode p] {l : Lexeme} {β : Type} {f : Node → Parse β} {result : β → List Token → Prop}
    (hf : ∀ e, Reads (Behind before (e.Fills start)) (f e) result) : ReadsNext start l before (p >>= f) result := by
  intro read c hstart hl hc hread
  refine ReadsFrom.bind (fun e c' hrun => ?_) hf
  -- What has been read is told by a property that holds of it alone.
  obtain ⟨more, hahead, hlast, first, ts, hts, rfl, s, hbegins, hends⟩ := h.reads (· = read) read c hc rfl e c' hrun
  obtain rfl := List.append_cancel_left hts
  refine ⟨more, hahead, hlast, first, more, rfl, hread, ?_, hends⟩
  obtain ⟨t, rest, rfl, -, hl⟩ := hbegins
  refine ⟨t, rest, rfl, ?_, hl⟩
  rw [← hstart, Cursor.next, hahead]
  rfl

end Nodes

/-- Behind an operand, an operator and a further operand make an operation of all, when the operator computes. -/
theorem completes_operation (before : List Token → Prop) (left right : Node) (computes : Bool) (start : Nat) :
    Reads (Behind before (Behind (left.Fills start) (Behind (fun _ => True) fun ts => ∃ s, right.Fills s ts)))
      (Parse.node (if computes then .operation left.stop right.start else .logic) start) fun e =>
      Behind before (e.Fills start) := by
  refine completes_target (fun ts => ?_) (fun ts l r h hshape => ?_) fun ts base _ hshape => ?_
  · exact begins_of_behind fun _ h => h.1
  · obtain ⟨first, _, rfl, hleft, between, more, rfl, -, s, hright⟩ := h
    split at hshape
    next =>
      cases hshape
      exact Node.isOperation_of_fills hleft hright
    next => cases hshape
  · split at hshape <;> cases hshape

/-- Behind a value, brackets make a subscript of it. -/
theorem completes_subscript {before : List Token → Prop} (value : Node) (start : Nat) :
    Reads (Behind (Behind (Behind (Behind before (value.Fills start)) (Single (.opening .square))) fun _ => True)
        (Single (.closing .square)))
      (Parse.target (.subscript value.stop) start true) fun e => Behind before (e.Fills start) := by
  have hsubscript : ∀ ts base, Behind (value.Fills start) (Behind (Single (.opening .square))
      (Behind (fun _ => True) (Single (.closing .square)))) ts → Shape.subscript value.stop = .subscript base →
      IsSubscript ts base := by
    rintro ts base ⟨first, _, rfl, hvalue, _, _, rfl, ⟨_, opening, rfl, -, hopening⟩, inside, _, rfl, -, _, closing, rfl, -,
      hclosing⟩ hshape
    cases hshape
    simpa using Node.isSubscript_of_fills hvalue hopening hclosing
  refine (completes_target (fun ts => ?_) ?_ hsubscript).of_before fun _ h => h.assoc.assoc.assoc
  · exact begins_of_behind fun _ h => h.1
  · intro _ _ _ _ hshape
    cases hshape

/-! ## The functions of the parser -/

instance : ReadsNode failure := ⟨fun _ => Reads.failure⟩

def startsString : Lexeme → Bool
  | .string _ | .stringStart _ => true
  | _ => false

/-- What the functions of the parser read with `n` units of fuel. -/
class Reading (n : Nat) : Prop where
  expressionList : ∀ ctx, ReadsNode (expressionList n ctx)
  moreListed : ∀ ctx assignable, Steps (moreListed n ctx assignable)
  moreElements : ∀ assignable, Steps (moreElements n assignable)
  named : ∀ ctx, ReadsNode (named n ctx)
  conditional : ∀ ctx, ReadsNode (conditional n ctx)
  operation : ∀ level ctx, ReadsNode (operation n level ctx)
  moreOperands : ∀ level ctx start left before,
    Reads (Behind before (left.Fills start)) (moreOperands n level ctx start left) fun e => Behind before (e.Fills start)
  operand : ∀ level ctx, ReadsNode (operand n level ctx)
  upToBitOr : ReadsNode (upToBitOr n)
  trailers : ∀ start base before,
    Reads (Behind before (base.Fills start)) (trailers n start base) fun e => Behind before (e.Fills start)
  atom : ReadsNode (atom n)
  stringsNext : ∀ seen start l before, startsString l = true →
    ReadsNext start l before (strings n seen) fun _ => Behind before (Begins start)
  strings : ∀ seen, Steps (strings n seen)
  fields : Steps (fields n)
  group : ∀ start, Completes start (group n start)
  listDisplay : ∀ start, Completes start (listDisplay n start)
  setOrMapping : ∀ start, Completes start (setOrMapping n start)
  moreEntries : Steps (moreEntries n)
  comprehensions : Steps (comprehensions n)
  conditions : Steps (conditions n)
  slices : Steps (slices n)
  slice : Steps (slice n)
  bound : Steps (bound n)
  arguments : ∀ seen, Steps (arguments n seen)
  argument : ∀ seen, Steps (argument n seen)
  parameters : ∀ seen, Steps (parameters n seen)

attribute [instance] Reading.expressionList Reading.moreListed Reading.moreElements Reading.named Reading.conditional
  Reading.operation Reading.operand Reading.upToBitOr Reading.atom Reading.strings Reading.fields Reading.group
  Reading.listDisplay Reading.setOrMapping Reading.moreEntries Reading.comprehensions Reading.conditions Reading.slices
  Reading.slice Reading.bound Reading.arguments Reading.argument Reading.parameters

theorem reading_zero : Reading 0 where
  expressionList ctx := by rw [Code.expressionList]; infer_instance
  moreListed ctx assignable := by rw [Code.moreListed]; infer_instance
  moreElements assignable := by rw [Code.moreElements]; infer_instance
  named ctx := by rw [Code.named]; infer_instance
  conditional ctx := by rw [Code.conditional]; infer_instance
  operation level ctx := by rw [Code.operation]; infer_instance
  moreOperands level ctx start left before := by rw [Code.moreOperands]; exact Reads.failure
  operand level ctx := by rw [Code.operand]; infer_instance
  upToBitOr := by rw [Code.upToBitOr]; infer_instance
  trailers start base before := by rw [Code.trailers]; exact Reads.failure
  atom := by rw [Code.atom]; infer_instance
  strings seen := by rw [Code.strings]; infer_instance
  stringsNext seen start l before _ := by rw [Code.strings]; exact Reads.failure.next
  fields := by rw [Code.fields]; infer_instance
  group start := by rw [Code.group]; infer_instance
  listDisplay start := by rw [Code.listDisplay]; infer_instance
  setOrMapping start := by rw [Code.setOrMapping]; infer_instance
  moreEntries := by rw [Code.moreEntries]; infer_instance
  comprehensions := by rw [Code.comprehensions]; infer_instance
  conditions := by rw [Code.conditions]; infer_instance
  slices := by rw [Code.slices]; infer_instance
  slice := by rw [Code.slice]; infer_instance
  bound := by rw [Code.bound]; infer_instance
  arguments seen := by rw [Code.arguments]; infer_instance
  argument seen := by rw [Code.argument]; infer_instance
  parameters seen := by rw [Code.parameters]; infer_instance

theorem steps_parameterStart (seen : ParametersSeen) : Steps (parameterStart seen) := by
  unfold parameterStart
  refine Steps.then inferInstance fun _ => Steps.then inferInstance fun next => ?_
  split
  next =>
    refine Steps.then inferInstance fun _ => Steps.then inferInstance fun next => ?_
    split <;> infer_instance
  next =>
    refine Steps.then inferInstance fun _ => Steps.then inferInstance fun next => ?_
    split <;> infer_instance
  all_goals infer_instance

instance (seen : ParametersSeen) : Steps (parameterStart seen) := steps_parameterStart seen

section Step
variable {n : Nat} [h : Reading n]
include h

theorem readsNode_expressionList (ctx : Context) : ReadsNode (expressionList (n + 1) ctx) := by
  rw [expressionList]
  refine readsNode_here fun start l before => ReadsNext.node fun first => reads_peek.bind fun next => ?_
  exact Reads.ite (fun _ => Completes.of_fills first) fun _ => Reads.pure fun _ hfirst => hfirst

theorem steps_moreListed (ctx : Context) (assignable : Bool) : Steps (moreListed (n + 1) ctx assignable) := by
  rw [moreListed]
  infer_instance

theorem steps_moreElements (assignable : Bool) : Steps (moreElements (n + 1) assignable) := by
  rw [moreElements]
  infer_instance

theorem readsNode_named (ctx : Context) : ReadsNode (named (n + 1) ctx) := by
  rw [named]
  refine readsNode_here fun start l before => ReadsNext.node fun e => ?_
  exact reads_accept_ite _ (Completes.onward fun _ h => h.1) (Reads.pure fun _ he => he)

theorem readsNode_conditional (ctx : Context) : ReadsNode (conditional (n + 1) ctx) := by
  rw [conditional]
  refine readsNode_here fun start l before => ReadsNext.accept_ite _ ?_ (ReadsNext.node fun e => ?_)
  · exact Completes.of_singleAt rfl
  · exact reads_accept_ite _ (Completes.onward fun _ h => h.1) (Reads.pure fun _ he => he)

theorem readsNode_operation (level : Nat) (ctx : Context) : ReadsNode (operation (n + 1) level ctx) := by
  rw [operation]
  exact readsNode_here fun start l before => ReadsNext.node fun left => h.moreOperands level ctx start left before

/-- With an operator and another operand behind it, what has been read becomes an operation. -/
theorem reads_moreOperands (level : Nat) (ctx : Context) (start : Nat) (left : Node) (before : List Token → Prop) :
    Reads (Behind before (left.Fills start)) (moreOperands (n + 1) level ctx start left) fun e =>
      Behind before (e.Fills start) := by
  rw [moreOperands]
  refine reads_peek.bind fun next => Reads.ite (fun _ => Reads.pure fun _ hleft => hleft) fun _ => ?_
  refine reads_peekSecond.bind fun second => ?_
  split
  next => exact Reads.pure fun _ hleft => hleft
  next op _ =>
    -- Behind the operator, and behind the second word of one that has two.
    have hright : Reads (Behind (Behind before (left.Fills start)) fun _ => True) (do
        let right ← operation n op.level ctx
        let e ← Parse.node (if op.computes then .operation left.stop right.start else .logic) start
        moreOperands n level ctx start { e with grouped := left.grouped }) fun e => Behind before (e.Fills start) := by
      refine ((h.operation op.level ctx).reads _).bind fun right => ?_
      have hnode := completes_operation before left right op.computes start
      refine (hnode.of_before fun _ h => h.assoc.assoc).bind fun e => ?_
      exact (h.moreOperands level ctx start { e with grouped := left.grouped } before).of_before fun _ he =>
        he.mono fun _ he => he.of_places rfl rfl rfl
    refine Reads.ite (fun _ => Reads.pure fun _ hleft => hleft) fun _ => (Steps.frame _).bind fun _ => ?_
    refine Reads.ite (fun _ => ?_) fun _ => hright
    exact ((Steps.frame _).mono fun _ _ h => h.assoc.mono fun _ _ => trivial).bind fun _ => hright

theorem readsNode_operand (level : Nat) (ctx : Context) : ReadsNode (operand (n + 1) level ctx) := by
  rw [operand]
  refine readsNode_here fun start l before => ReadsNext.peek ?_
  split
  case h_5 =>
    refine ReadsNext.require (ReadsNext.first rfl ?_)
    split <;> infer_instance
  case h_8 => exact ReadsNext.node fun e => h.trailers start e before
  all_goals exact ReadsNext.require (ReadsNext.first rfl inferInstance)

theorem readsNode_upToBitOr : ReadsNode (upToBitOr (n + 1)) := by
  rw [upToBitOr]
  refine ⟨fun before => ((h.conditional .plain).reads before).bind fun e => ?_⟩
  exact (reads_require _).bind fun _ => Reads.pure fun _ he => he

/-- Behind a value, brackets make a subscript of it, and whatever else may follow an expression without brackets of
its own. -/
theorem reads_trailers (start : Nat) (base : Node) (before : List Token → Prop) :
    Reads (Behind before (base.Fills start)) (trailers (n + 1) start base) fun e => Behind before (e.Fills start) := by
  -- Each trailer makes an expression with the same beginning, behind which more of them may follow.
  have hmore : ∀ e : Node, Reads (Behind before (e.Fills start)) (trailers n start { e with grouped := base.grouped })
      fun e => Behind before (e.Fills start) := fun e =>
    (h.trailers start { e with grouped := base.grouped } before).of_before fun _ he =>
      he.mono fun _ he => he.of_places rfl rfl rfl
  rw [trailers]
  refine Reads.peek fun next l => ?_
  split
  case h_1 =>
    refine (readsNext_advance next _).bind fun _ => (Steps.frame _).bind fun _ => ?_
    refine (Completes.of_begun fun _ h => h.assoc.assoc.mono fun _ => ?_).bind hmore
    exact begins_of_behind fun _ h => h.1
  case h_2 =>
    refine (readsNext_single next _).bind fun _ => (Steps.frame _).bind fun _ => (reads_expect _).bind fun _ => ?_
    exact (completes_subscript base start).bind hmore
  case h_3 =>
    refine (readsNext_advance next _).bind fun _ => reads_peek.bind fun next => ?_
    split
    next =>
      refine (Steps.frame _).bind fun _ => (Completes.of_begun fun _ h => h.assoc.assoc.mono fun _ => ?_).bind hmore
      exact begins_of_behind fun _ h => h.1
    next => exact Reads.failure
  case h_4 => exact Reads.next (Reads.pure fun _ hbase => hbase)

theorem readsNode_atom : ReadsNode (atom (n + 1)) := by
  rw [atom]
  refine readsNode_here fun start l before => ReadsNext.peek ?_
  split
  case h_7 | h_8 =>
    exact (h.stringsNext _ start _ before rfl).bind fun _ => Completes.reads before
  case h_12 => exact Reads.failure.next
  all_goals exact ReadsNext.first rfl inferInstance

theorem steps_strings (seen : List Flavour) : Steps (strings (n + 1) seen) := by
  rw [strings]
  refine Steps.then inferInstance fun next => ?_
  split <;> infer_instance

theorem readsNext_strings (seen : List Flavour) (start : Nat) (l : Lexeme) (before : List Token → Prop)
    (hl : startsString l = true) :
    ReadsNext start l before (strings (n + 1) seen) fun _ => Behind before (Begins start) := by
  rw [strings]
  refine ReadsNext.peek ?_
  split
  next => exact ReadsNext.begun rfl
  next => exact ReadsNext.begun rfl
  next hstring hstart =>
    cases l with
    | string flavour => exact absurd rfl (hstring flavour)
    | stringStart flavour => exact absurd rfl (hstart flavour)
    | _ => cases hl

theorem steps_fields : Steps (fields (n + 1)) := by
  rw [fields]
  refine Steps.then inferInstance fun next => ?_
  split
  next => infer_instance
  next =>
    refine Steps.then inferInstance fun _ => Steps.then inferInstance fun e => Steps.then inferInstance fun _ => ?_
    refine Steps.then inferInstance fun _ => Steps.then inferInstance fun conversion => ?_
    dsimp only
    split
    next =>
      refine Steps.then inferInstance fun _ => Steps.then inferInstance fun _ => Steps.then inferInstance fun _ => ?_
      refine Steps.then inferInstance fun next => ?_
      split <;> infer_instance
    next => infer_instance
  next => infer_instance

theorem completes_group (start : Nat) : Completes start (group (n + 1) start) := by
  rw [group]
  refine ⟨fun before => reads_accept_ite _ (Completes.onward fun _ h => h) (ReadsNode.bind_begun fun first => ?_)⟩
  refine reads_peek.bind fun next => Reads.ite (fun _ => Completes.of_fills first) fun _ => ?_
  refine Reads.ite (fun _ => Completes.of_fills first) fun _ => (reads_require _).bind fun _ => ?_
  -- Only here is an expression passed on that more has been read behind.
  refine (reads_expect _).bind fun _ => Reads.pure fun read h => h.assoc.mono ?_
  rintro _ ⟨ts, _, rfl, ⟨hbegins, hends⟩, _, closing, rfl, -, hclosing⟩
  exact Node.Fills.of_places (e := first) ⟨hbegins.append _, hends.close hclosing⟩ rfl rfl rfl

theorem completes_listDisplay (start : Nat) : Completes start (listDisplay (n + 1) start) := by
  rw [listDisplay]
  infer_instance

theorem completes_setOrMapping (start : Nat) : Completes start (setOrMapping (n + 1) start) := by
  rw [setOrMapping]
  dsimp only
  infer_instance

theorem steps_moreEntries : Steps (moreEntries (n + 1)) := by
  rw [moreEntries]
  infer_instance

theorem steps_comprehensions : Steps (comprehensions (n + 1)) := by
  rw [comprehensions]
  infer_instance

theorem steps_conditions : Steps (conditions (n + 1)) := by
  rw [conditions]
  infer_instance

theorem steps_slices : Steps (slices (n + 1)) := by
  rw [slices]
  infer_instance

theorem steps_slice : Steps (slice (n + 1)) := by
  rw [slice]
  infer_instance

theorem steps_bound : Steps (bound (n + 1)) := by
  rw [bound]
  infer_instance

theorem steps_arguments (seen : ArgumentsSeen) : Steps (arguments (n + 1) seen) := by
  rw [arguments]
  infer_instance

theorem steps_argument (seen : ArgumentsSeen) : Steps (argument (n + 1) seen) := by
  rw [argument]
  infer_instance

theorem steps_parameters (seen : ParametersSeen) : Steps (parameters (n + 1) seen) := by
  rw [parameters]
  refine Steps.then inferInstance fun next => ?_
  have hmore : ∀ found : ParametersSeen × Bool, Steps (do
      if found.2 = true then
        Parse.advance
        let _ ← conditional n .plain
      if ← Parse.accept (.sign ",") then parameters n found.1 else Parse.require !found.1.starLast) := by
    intro found
    infer_instance
  split
  next => exact Steps.then inferInstance hmore
  next => infer_instance

end Step

/-- By induction on the fuel: every call is one of a function with less of it. -/
theorem reading (n : Nat) : Reading n := by
  induction n with
  | zero => exact reading_zero
  | succ n ih =>
    exact {
      expressionList := readsNode_expressionList
      moreListed := steps_moreListed
      moreElements := steps_moreElements
      named := readsNode_named
      conditional := readsNode_conditional
      operation := readsNode_operation
      moreOperands := reads_moreOperands
      operand := readsNode_operand
      upToBitOr := readsNode_upToBitOr
      trailers := reads_trailers
      atom := readsNode_atom
      strings := steps_strings
      stringsNext := readsNext_strings
      fields := steps_fields
      group := completes_group
      listDisplay := completes_listDisplay
      setOrMapping := completes_setOrMapping
      moreEntries := steps_moreEntries
      comprehensions := steps_comprehensions
      conditions := steps_conditions
      slices := steps_slices
      slice := steps_slice
      bound := steps_bound
      arguments := steps_arguments
      argument := steps_argument
      parameters := steps_parameters }

end Traceback.Code
