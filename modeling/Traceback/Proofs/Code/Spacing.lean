import Traceback.Code.Raising
import Traceback.Proofs.Code.Expression

/-! # Parsers and the places of tokens

A parser decides by the lexemes of the tokens and, in one place, by whether two of them touch.

* `Respaced`: that tokens have the lexemes of others, and touch where those do.
* `Respects`: that a parser that accepts tokens accepts them respaced, with alike results, found for most parsers as an
  instance.
* `Respecting`: all functions of the parser with the same fuel; `respecting` is the induction on the fuel.
* `raiseOnly_respects`: so it is with `raise` statements.
-/

namespace Traceback.Code
set_option autoImplicit false
set_option synthInstance.maxSize 4000

/-! ## Tokens elsewhere -/

/-- The same lexemes elsewhere: behind `last'` they touch what is in front of them if they do behind `last`. -/
inductive Respaced : (last last' : Nat) → List Token → List Token → Prop where
  | nil {last last' : Nat} : Respaced last last' [] []
  | cons {last last' : Nat} {t t' : Token} {ts ts' : List Token} (hlexeme : t.lexeme = t'.lexeme)
      (htouch : t.start = last → t'.start = last') (h : Respaced t.stop t'.stop ts ts') :
      Respaced last last' (t :: ts) (t' :: ts')

def Cursor.Respaced (c c' : Cursor) : Prop := Code.Respaced c.last c'.last c.ahead c'.ahead

theorem Respaced.length_eq {last last' : Nat} {ts ts' : List Token} (h : Respaced last last' ts ts') :
    ts.length = ts'.length := by
  induction h with
  | nil => rfl
  | cons _ _ _ ih => exact congrArg (· + 1) ih

theorem Respaced.lexemeAt_eq {last last' : Nat} {ts ts' : List Token} (h : Respaced last last' ts ts') (i : Nat) :
    Parse.lexemeAt ts i = Parse.lexemeAt ts' i := by
  induction h generalizing i with
  | nil => rfl
  | cons hlexeme _ _ ih =>
    cases i with
    | zero => exact hlexeme
    | succ i => exact ih i

/-! ## Alike results -/

/-- Shapes that differ at most in places. -/
class inductive Shape.Alike : Shape → Shape → Prop where
  | refl (s : Shape) : Alike s s
  | operation (left right left' right' : Nat) : Alike (.operation left right) (.operation left' right')
  | subscript (base base' : Nat) : Alike (.subscript base) (.subscript base')

/-- Expressions that differ at most in their places. -/
class Node.Alike (e e' : Node) : Prop where
  shape : e.shape.Alike e'.shape
  grouped : e.grouped = e'.grouped
  assignable : e.assignable = e'.assignable

/-- Two of them. -/
structure Node.Pair where
  first : Node
  second : Node
  alike : first.Alike second

instance (x : Node.Pair) : x.first.Alike x.second := x.alike

/-- Conditions that do not depend on places. -/
class Agrees (b b' : Bool) : Prop where
  eq : b = b'

/-- Where `p` accepts tokens, `p'` accepts them elsewhere, and the results are related. -/
class Respects {α : Type} (R : α → α → Prop) (p p' : Parse α) : Prop where
  run : ∀ c c', c.Respaced c' → ∀ a d, p.run c = some (a, d) →
    ∃ a' d', p'.run c' = some (a', d') ∧ R a a' ∧ d.Respaced d'

/-- Results that hold no place. -/
class Placeless (_α : Type) : Prop

instance : Placeless Unit := ⟨⟩

instance : Placeless Bool := ⟨⟩

instance : Placeless Lexeme := ⟨⟩

instance : Placeless ArgumentsSeen := ⟨⟩

instance : Placeless (ParametersSeen × Bool) := ⟨⟩

section Respects
variable {α β : Type} {R : α → α → Prop} {S : β → β → Prop} {p p' : Parse α} {f f' : α → Parse β}

theorem Respects.bind (hp : Respects R p p') (hf : ∀ a b, R a b → Respects S (f a) (f' b)) :
    Respects S (p >>= f) (p' >>= f') := by
  refine ⟨fun c c' hc b e hrun => ?_⟩
  rw [StateT.run_bind] at hrun
  obtain ⟨⟨a, d⟩, ha, hb⟩ := Option.bind_eq_some_iff.mp hrun
  obtain ⟨a', d', ha', hR, hd⟩ := hp.run c c' hc a d ha
  obtain ⟨b', e', hb', hS, he⟩ := (hf a a' hR).run d d' hd b e hb
  exact ⟨b', e', by rw [StateT.run_bind, ha']; exact hb', hS, he⟩

instance [Placeless α] [hp : Respects Eq p p'] [hf : ∀ a, Respects S (f a) (f' a)] : Respects S (p >>= f) (p' >>= f') :=
  hp.bind fun a _ h => h ▸ hf a

instance {p p' : Parse Nat} {f f' : Nat → Parse β} [hp : Respects (fun _ _ => True) p p']
    [hf : ∀ start start', Respects S (f start) (f' start')] : Respects S (p >>= f) (p' >>= f') :=
  hp.bind fun start start' _ => hf start start'

instance {p p' : Parse Node} {f f' : Node → Parse β} [hp : Respects Node.Alike p p']
    [hf : ∀ x : Node.Pair, Respects S (f x.first) (f' x.second)] : Respects S (p >>= f) (p' >>= f') :=
  hp.bind fun e e' h => hf ⟨e, e', h⟩

/-- The same result of both. -/
theorem Respects.seq [Placeless α] [hp : Respects Eq p p'] (hf : ∀ a, Respects S (f a) (f' a)) :
    Respects S (p >>= f) (p' >>= f') := inferInstance

theorem Respects.pure {a a' : α} (h : R a a') : Respects R (pure a) (pure a') := by
  refine ⟨fun c c' hc b d hrun => ?_⟩
  cases hrun
  exact ⟨a', c', rfl, h, hc⟩

instance (a : α) : Respects Eq (pure a : Parse α) (pure a) := .pure rfl

instance {b b' : Bool} [h : Agrees b b'] : Respects Eq (pure b : Parse Bool) (pure b') := .pure h.eq

instance {e e' : Node} [h : e.Alike e'] : Respects Node.Alike (pure e) (pure e') := .pure h

instance : Respects R (failure : Parse α) p' := ⟨fun c c' hc a d hrun => by cases hrun⟩

instance {c : Prop} [Decidable c] {q q' : Parse α} [hp : Respects R p p'] [hq : Respects R q q'] :
    Respects R (if c then p else q) (if c then p' else q') := by
  split
  · exact hp
  · exact hq

instance {b b' : Bool} [h : Agrees b b'] {q q' : Parse α} [hp : Respects R p p'] [hq : Respects R q q'] :
    Respects R (if b = true then p else q) (if b' = true then p' else q') := by
  rw [h.eq]
  infer_instance

end Respects

/-! ## Single tokens -/

instance : Respects Eq Parse.peek Parse.peek := by
  refine ⟨fun c c' hc a d hrun => ?_⟩
  cases hrun
  exact ⟨_, c', rfl, hc.lexemeAt_eq 0, hc⟩

instance : Respects Eq Parse.peekSecond Parse.peekSecond := by
  refine ⟨fun c c' hc a d hrun => ?_⟩
  cases hrun
  exact ⟨_, c', rfl, hc.lexemeAt_eq 1, hc⟩

instance : Respects (fun _ _ => True) Parse.here Parse.here := by
  refine ⟨fun c c' hc a d hrun => ?_⟩
  cases hrun
  exact ⟨_, c', rfl, trivial, hc⟩

instance : Respects (fun _ _ => True) Parse.last Parse.last := by
  refine ⟨fun c c' hc a d hrun => ?_⟩
  cases hrun
  exact ⟨_, c', rfl, trivial, hc⟩

instance : Respects Eq Parse.advance Parse.advance := by
  refine ⟨fun c c' hc a d hrun => ?_⟩
  obtain ⟨ahead, last⟩ := c
  obtain ⟨ahead', last'⟩ := c'
  cases hc with
  | nil => cases hrun
  | cons hlexeme htouch h =>
    cases hrun
    exact ⟨_, _, rfl, rfl, h⟩

instance {b b' : Bool} [h : Agrees b b'] : Respects Eq (Parse.require b) (Parse.require b') := by
  unfold Parse.require
  infer_instance

instance (l : Lexeme) : Respects Eq (Parse.expect l) (Parse.expect l) := by
  unfold Parse.expect
  infer_instance

instance (l : Lexeme) : Respects Eq (Parse.accept l) (Parse.accept l) := by
  unfold Parse.accept
  infer_instance

/-- Whether two tokens touch is asked only where they must. -/
theorem respects_touching {α : Type} {R : α → α → Prop} {q q' : Parse α} (hq : Respects R q q') :
    Respects R (do
      Parse.require ((← Parse.here) == (← Parse.last))
      q) (do
      Parse.require ((← Parse.here) == (← Parse.last))
      q') := by
  refine ⟨fun c c' hc a d hrun => ?_⟩
  let next (c : Cursor) : Nat := (c.ahead.head?.map (·.start)).getD c.last
  have hasked : ∀ (q : Parse α) (c : Cursor), (do
      Parse.require ((← Parse.here) == (← Parse.last))
      q : Parse α).run c = if next c == c.last then q.run c else none := by
    intro q c
    show (Parse.require (next c == c.last) >>= fun _ => q).run c = _
    unfold Parse.require
    split <;> rfl
  have htouch : next c = c.last → next c' = c'.last := by
    obtain ⟨ahead, last⟩ := c
    obtain ⟨ahead', last'⟩ := c'
    cases hc with
    | nil => exact fun _ => rfl
    | cons hlexeme htouch h => exact htouch
  rw [hasked] at hrun
  simp only [hasked]
  split at hrun
  next heq =>
    obtain ⟨a', d', hrun', hR, hd⟩ := hq.run c c' hc a d hrun
    exact ⟨a', d', by rw [htouch (eq_of_beq heq), beq_self_eq_true, if_pos rfl, hrun'], hR, hd⟩
  next => cases hrun

/-! ## Conditions and expressions -/

instance (b : Bool) : Agrees b b := ⟨rfl⟩

instance {a a' b b' : Bool} [ha : Agrees a a'] [hb : Agrees b b'] : Agrees (a && b) (a' && b') := ⟨by rw [ha.eq, hb.eq]⟩

instance {a a' b b' : Bool} [ha : Agrees a a'] [hb : Agrees b b'] : Agrees (a || b) (a' || b') := ⟨by rw [ha.eq, hb.eq]⟩

instance {a a' : Bool} [ha : Agrees a a'] : Agrees (!a) (!a') := ⟨by rw [ha.eq]⟩

attribute [instance] Shape.Alike.refl Shape.Alike.operation Shape.Alike.subscript

instance {c : Prop} [Decidable c] {s s' t t' : Shape} [hs : s.Alike s'] [ht : t.Alike t'] :
    Shape.Alike (if c then s else t) (if c then s' else t') := by
  split
  · exact hs
  · exact ht

section Nodes
variable {e e' : Node} [h : e.Alike e']

instance : Agrees e.grouped e'.grouped := ⟨h.grouped⟩

instance : Agrees e.assignable e'.assignable := ⟨h.assignable⟩

instance (s : Shape) [hs : s.Plain] : Agrees (e.shape == s) (e'.shape == s) := by
  have hshape := h.shape
  generalize e.shape = t, e'.shape = t' at hshape ⊢
  cases hshape with
  | refl => exact ⟨rfl⟩
  | operation left right left' right' =>
    exact ⟨(beq_false_of_ne (hs.ne_operation _ _).symm).trans (beq_false_of_ne (hs.ne_operation _ _).symm).symm⟩
  | subscript base base' =>
    exact ⟨(beq_false_of_ne (hs.ne_subscript _).symm).trans (beq_false_of_ne (hs.ne_subscript _).symm).symm⟩

instance (s : Shape) [s.Plain] : Agrees (e.shape != s) (e'.shape != s) := inferInstanceAs (Agrees (!(_ == _)) (!(_ == _)))

instance : Agrees e.bareStarred e'.bareStarred := inferInstanceAs (Agrees (_ && !_) (_ && !_))

instance {start stop start' stop' : Nat} {grouped grouped' : Bool} [hgrouped : Agrees grouped grouped'] :
    Node.Alike ⟨e.shape, start, stop, grouped, e.assignable⟩ ⟨e'.shape, start', stop', grouped', e'.assignable⟩ :=
  ⟨h.shape, hgrouped.eq, h.assignable⟩

end Nodes

instance {shape shape' : Shape} [hs : shape.Alike shape'] {start start' : Nat} {a a' : Bool} [ha : Agrees a a'] :
    Respects Node.Alike (Parse.target shape start a) (Parse.target shape' start' a') := by
  unfold Parse.target
  have hnode : ∀ stop stop', Node.Alike ⟨shape, start, stop, false, a⟩ ⟨shape', start', stop', false, a'⟩ :=
    fun _ _ => ⟨hs, rfl, ha.eq⟩
  infer_instance

instance {shape shape' : Shape} [shape.Alike shape'] {start start' : Nat} :
    Respects Node.Alike (Parse.node shape start) (Parse.node shape' start') :=
  inferInstanceAs (Respects Node.Alike (Parse.target shape start false) (Parse.target shape' start' false))

/-! ## The functions of the parser -/

/-- All functions of the parser respect places with `n` units of fuel. -/
class Respecting (n : Nat) : Prop where
  expressionList : ∀ ctx, Respects Node.Alike (expressionList n ctx) (expressionList n ctx)
  moreListed : ∀ ctx a a' [Agrees a a'], Respects Eq (moreListed n ctx a) (moreListed n ctx a')
  moreElements : ∀ a a' [Agrees a a'], Respects Eq (moreElements n a) (moreElements n a')
  named : ∀ ctx, Respects Node.Alike (named n ctx) (named n ctx)
  conditional : ∀ ctx, Respects Node.Alike (conditional n ctx) (conditional n ctx)
  operation : ∀ level ctx, Respects Node.Alike (operation n level ctx) (operation n level ctx)
  moreOperands : ∀ level ctx start start' e e' [Node.Alike e e'],
    Respects Node.Alike (moreOperands n level ctx start e) (moreOperands n level ctx start' e')
  operand : ∀ level ctx, Respects Node.Alike (operand n level ctx) (operand n level ctx)
  upToBitOr : Respects Node.Alike (upToBitOr n) (upToBitOr n)
  trailers : ∀ start start' e e' [Node.Alike e e'], Respects Node.Alike (trailers n start e) (trailers n start' e')
  atom : Respects Node.Alike (atom n) (atom n)
  strings : ∀ seen, Respects Eq (strings n seen) (strings n seen)
  fields : Respects Eq (fields n) (fields n)
  group : ∀ start start', Respects Node.Alike (group n start) (group n start')
  listDisplay : ∀ start start', Respects Node.Alike (listDisplay n start) (listDisplay n start')
  setOrMapping : ∀ start start', Respects Node.Alike (setOrMapping n start) (setOrMapping n start')
  moreEntries : Respects Eq (moreEntries n) (moreEntries n)
  comprehensions : Respects Eq (comprehensions n) (comprehensions n)
  conditions : Respects Eq (conditions n) (conditions n)
  slices : Respects Eq (slices n) (slices n)
  slice : Respects Eq (slice n) (slice n)
  bound : Respects Eq (bound n) (bound n)
  arguments : ∀ seen, Respects Eq (arguments n seen) (arguments n seen)
  argument : ∀ seen, Respects Eq (argument n seen) (argument n seen)
  parameters : ∀ seen, Respects Eq (parameters n seen) (parameters n seen)

attribute [instance] Respecting.expressionList Respecting.moreListed Respecting.moreElements Respecting.named
  Respecting.conditional Respecting.operation Respecting.moreOperands Respecting.operand Respecting.upToBitOr
  Respecting.trailers Respecting.atom Respecting.strings Respecting.fields Respecting.group Respecting.listDisplay
  Respecting.setOrMapping Respecting.moreEntries Respecting.comprehensions Respecting.conditions Respecting.slices
  Respecting.slice Respecting.bound Respecting.arguments Respecting.argument Respecting.parameters

theorem respecting_zero : Respecting 0 where
  expressionList ctx := by rw [Code.expressionList]; infer_instance
  moreListed ctx a a' _ := by rw [Code.moreListed, Code.moreListed]; infer_instance
  moreElements a a' _ := by rw [Code.moreElements, Code.moreElements]; infer_instance
  named ctx := by rw [Code.named]; infer_instance
  conditional ctx := by rw [Code.conditional]; infer_instance
  operation level ctx := by rw [Code.operation]; infer_instance
  moreOperands level ctx start start' e e' _ := by rw [Code.moreOperands, Code.moreOperands]; infer_instance
  operand level ctx := by rw [Code.operand]; infer_instance
  upToBitOr := by rw [Code.upToBitOr]; infer_instance
  trailers start start' e e' _ := by rw [Code.trailers, Code.trailers]; infer_instance
  atom := by rw [Code.atom]; infer_instance
  strings seen := by rw [Code.strings]; infer_instance
  fields := by rw [Code.fields]; infer_instance
  group start start' := by rw [Code.group, Code.group]; infer_instance
  listDisplay start start' := by rw [Code.listDisplay, Code.listDisplay]; infer_instance
  setOrMapping start start' := by rw [Code.setOrMapping, Code.setOrMapping]; infer_instance
  moreEntries := by rw [Code.moreEntries]; infer_instance
  comprehensions := by rw [Code.comprehensions]; infer_instance
  conditions := by rw [Code.conditions]; infer_instance
  slices := by rw [Code.slices]; infer_instance
  slice := by rw [Code.slice]; infer_instance
  bound := by rw [Code.bound]; infer_instance
  arguments seen := by rw [Code.arguments]; infer_instance
  argument seen := by rw [Code.argument]; infer_instance
  parameters seen := by rw [Code.parameters]; infer_instance

theorem respects_parameterStart (seen : ParametersSeen) : Respects Eq (parameterStart seen) (parameterStart seen) := by
  unfold parameterStart
  refine .seq fun _ => .seq fun next => ?_
  split
  next =>
    refine .seq fun _ => .seq fun next => ?_
    split <;> infer_instance
  next =>
    refine .seq fun _ => .seq fun next => ?_
    split <;> infer_instance
  all_goals infer_instance

instance (seen : ParametersSeen) : Respects Eq (parameterStart seen) (parameterStart seen) := respects_parameterStart seen

section Step
variable {n : Nat} [h : Respecting n]
include h

theorem respects_expressionList (ctx : Context) : Respects Node.Alike (expressionList (n + 1) ctx) (expressionList (n + 1) ctx) := by
  rw [expressionList]
  infer_instance

theorem respects_moreListed (ctx : Context) (a a' : Bool) [Agrees a a'] :
    Respects Eq (moreListed (n + 1) ctx a) (moreListed (n + 1) ctx a') := by
  rw [moreListed, moreListed]
  infer_instance

theorem respects_moreElements (a a' : Bool) [Agrees a a'] :
    Respects Eq (moreElements (n + 1) a) (moreElements (n + 1) a') := by
  rw [moreElements, moreElements]
  infer_instance

theorem respects_named (ctx : Context) : Respects Node.Alike (named (n + 1) ctx) (named (n + 1) ctx) := by
  rw [named]
  infer_instance

theorem respects_conditional (ctx : Context) : Respects Node.Alike (conditional (n + 1) ctx) (conditional (n + 1) ctx) := by
  rw [conditional]
  infer_instance

theorem respects_operation (level : Nat) (ctx : Context) :
    Respects Node.Alike (operation (n + 1) level ctx) (operation (n + 1) level ctx) := by
  rw [operation]
  infer_instance

theorem respects_moreOperands (level : Nat) (ctx : Context) (start start' : Nat) (e e' : Node) [e.Alike e'] :
    Respects Node.Alike (moreOperands (n + 1) level ctx start e) (moreOperands (n + 1) level ctx start' e') := by
  rw [moreOperands, moreOperands]
  refine .seq fun next => ?_
  split
  next => infer_instance
  next =>
    refine .seq fun second => ?_
    split
    next => infer_instance
    next =>
      dsimp only
      infer_instance

theorem respects_operand (level : Nat) (ctx : Context) :
    Respects Node.Alike (operand (n + 1) level ctx) (operand (n + 1) level ctx) := by
  rw [operand]
  refine .bind (R := fun _ _ => True) inferInstance fun start start' _ => .seq fun next => ?_
  split
  case h_5 =>
    refine .seq fun _ => .seq fun _ => ?_
    split <;> infer_instance
  all_goals infer_instance

theorem respects_upToBitOr : Respects Node.Alike (upToBitOr (n + 1)) (upToBitOr (n + 1)) := by
  rw [upToBitOr]
  infer_instance

theorem respects_trailers (start start' : Nat) (e e' : Node) [e.Alike e'] :
    Respects Node.Alike (trailers (n + 1) start e) (trailers (n + 1) start' e') := by
  rw [trailers, trailers]
  refine .seq fun next => ?_
  split
  case h_3 =>
    refine .seq fun _ => .seq fun next => ?_
    split <;> infer_instance
  all_goals infer_instance

theorem respects_atom : Respects Node.Alike (atom (n + 1)) (atom (n + 1)) := by
  rw [atom]
  refine .bind (R := fun _ _ => True) inferInstance fun start start' _ => .seq fun next => ?_
  split <;> infer_instance

theorem respects_strings (seen : List Flavour) : Respects Eq (strings (n + 1) seen) (strings (n + 1) seen) := by
  rw [strings]
  refine .seq fun next => ?_
  split <;> infer_instance

theorem respects_fields : Respects Eq (fields (n + 1)) (fields (n + 1)) := by
  rw [fields]
  refine .seq fun next => ?_
  split
  next => infer_instance
  next =>
    refine .seq fun _ => .bind (R := Node.Alike) inferInstance fun e e' _ => .seq fun _ => .seq fun _ => .seq fun asked => ?_
    dsimp only
    split
    next =>
      refine respects_touching (.seq fun next => ?_)
      split <;> infer_instance
    next => infer_instance
  next => infer_instance

theorem respects_group (start start' : Nat) : Respects Node.Alike (group (n + 1) start) (group (n + 1) start') := by
  rw [group, group]
  infer_instance

theorem respects_listDisplay (start start' : Nat) :
    Respects Node.Alike (listDisplay (n + 1) start) (listDisplay (n + 1) start') := by
  rw [listDisplay, listDisplay]
  infer_instance

theorem respects_setOrMapping (start start' : Nat) :
    Respects Node.Alike (setOrMapping (n + 1) start) (setOrMapping (n + 1) start') := by
  rw [setOrMapping, setOrMapping]
  dsimp only
  infer_instance

theorem respects_moreEntries : Respects Eq (moreEntries (n + 1)) (moreEntries (n + 1)) := by
  rw [moreEntries]
  infer_instance

theorem respects_comprehensions : Respects Eq (comprehensions (n + 1)) (comprehensions (n + 1)) := by
  rw [comprehensions]
  infer_instance

theorem respects_conditions : Respects Eq (conditions (n + 1)) (conditions (n + 1)) := by
  rw [conditions]
  infer_instance

theorem respects_slices : Respects Eq (slices (n + 1)) (slices (n + 1)) := by
  rw [slices]
  infer_instance

theorem respects_slice : Respects Eq (slice (n + 1)) (slice (n + 1)) := by
  rw [slice]
  infer_instance

theorem respects_bound : Respects Eq (bound (n + 1)) (bound (n + 1)) := by
  rw [bound]
  infer_instance

theorem respects_arguments (seen : ArgumentsSeen) : Respects Eq (arguments (n + 1) seen) (arguments (n + 1) seen) := by
  rw [arguments]
  infer_instance

theorem respects_argument (seen : ArgumentsSeen) : Respects Eq (argument (n + 1) seen) (argument (n + 1) seen) := by
  rw [argument]
  infer_instance

theorem respects_parameters (seen : ParametersSeen) :
    Respects Eq (parameters (n + 1) seen) (parameters (n + 1) seen) := by
  rw [parameters]
  refine .seq fun next => ?_
  have hmore : ∀ found : ParametersSeen × Bool, Respects Eq (do
      if found.2 = true then
        Parse.advance
        let _ ← conditional n .plain
      if ← Parse.accept (.sign ",") then parameters n found.1 else Parse.require !found.1.starLast) (do
      if found.2 = true then
        Parse.advance
        let _ ← conditional n .plain
      if ← Parse.accept (.sign ",") then parameters n found.1 else Parse.require !found.1.starLast) := by
    intro found
    infer_instance
  split
  next => exact .seq hmore
  next => infer_instance

end Step

/-- By induction on the fuel: every call is one of a function with less of it. -/
theorem respecting (n : Nat) : Respecting n := by
  induction n with
  | zero => exact respecting_zero
  | succ n ih =>
    exact {
      expressionList := respects_expressionList
      moreListed := respects_moreListed
      moreElements := respects_moreElements
      named := respects_named
      conditional := respects_conditional
      operation := respects_operation
      moreOperands := respects_moreOperands
      operand := respects_operand
      upToBitOr := respects_upToBitOr
      trailers := respects_trailers
      atom := respects_atom
      strings := respects_strings
      fields := respects_fields
      group := respects_group
      listDisplay := respects_listDisplay
      setOrMapping := respects_setOrMapping
      moreEntries := respects_moreEntries
      comprehensions := respects_comprehensions
      conditions := respects_conditions
      slices := respects_slices
      slice := respects_slice
      bound := respects_bound
      arguments := respects_arguments
      argument := respects_argument
      parameters := respects_parameters }

/-! ## Statements -/

instance (n : Nat) : Respecting n := respecting n

instance (n : Nat) : Respects Eq (single n) (single n) := by
  unfold single
  infer_instance

/-- **A `raise` statement is one wherever its tokens stand**, as long as those that touch still do. -/
theorem raiseOnly_respects (n : Nat) : Respects Eq (raiseOnly n) (raiseOnly n) := by
  unfold raiseOnly
  infer_instance

end Traceback.Code
