import Traceback.Code.Outline

/-! # What parsers read

A parser reads tokens one after the other and never goes back.

* `Behind`: that tokens stand behind others, of each of which a property holds.
* `Reads`: what holds of the tokens that have been read, before a parser and after it.
* `ReadsNext`: the same where it is known which token comes next.
* `Steps`: that a parser reads further tokens, found for most of them as an instance.
-/

namespace Traceback.Code
set_option autoImplicit false

/-! ## Tokens behind others -/

/-- Where the last of some tokens stops. -/
def endOf (read : List Token) : Nat := (read.getLast?.map (·.stop)).getD 0

theorem endOf_append (read : List Token) {more : List Token} (h : more ≠ []) : endOf (read ++ more) = endOf more := by
  rw [endOf, endOf, List.getLast?_append, List.getLast?_eq_some_getLast h]
  rfl

theorem endOf_append_singleton (read : List Token) (t : Token) : endOf (read ++ [t]) = t.stop :=
  endOf_append read (List.cons_ne_nil t [])

/-- Tokens for which `since` holds stand behind tokens for which `before` holds. -/
def Behind (before since : List Token → Prop) (read : List Token) : Prop :=
  ∃ first more, read = first ++ more ∧ before first ∧ since more

section Behind
variable {before since since' : List Token → Prop} {read : List Token}

theorem Behind.mono (h : Behind before since read) (hsince : ∀ more, since more → since' more) :
    Behind before since' read := by
  obtain ⟨first, more, rfl, hfirst, hmore⟩ := h
  exact ⟨first, more, rfl, hfirst, hsince more hmore⟩

theorem Behind.assoc (h : Behind (Behind before since) since' read) : Behind before (Behind since since') read := by
  obtain ⟨_, last, rfl, ⟨first, more, rfl, hfirst, hmore⟩, hlast⟩ := h
  exact ⟨first, more ++ last, List.append_assoc .., hfirst, more, last, rfl, hmore, hlast⟩

end Behind

/-- One token, which is `l` and starts at `start`. -/
def SingleAt (start : Nat) (l : Lexeme) (ts : List Token) : Prop := ∃ t, ts = [t] ∧ t.start = start ∧ t.lexeme = l

def Single (l : Lexeme) (ts : List Token) : Prop := ∃ start, SingleAt start l ts

/-! ## Triples -/

/-- What `p` reads at `c`, where the tokens `read` have been read. -/
def ReadsFrom {α : Type} (read : List Token) (c : Cursor) (p : Parse α) (found : α → List Token → Prop) : Prop :=
  ∀ a c', p.run c = some (a, c') →
    ∃ more, c.ahead = more ++ c'.ahead ∧ c'.last = endOf (read ++ more) ∧ found a (read ++ more)

/-- Behind tokens for which `before` holds, `p` reads further ones, and then `found` holds of its result and of all
tokens that have been read. -/
def Reads {α : Type} (before : List Token → Prop) (p : Parse α) (found : α → List Token → Prop) : Prop :=
  ∀ read c, c.last = endOf read → before read → ReadsFrom read c p found

/-- Where the next token starts, or else the last one stops. -/
def Cursor.next (c : Cursor) : Nat := (c.ahead.head?.map (·.start)).getD c.last

/-- The same, where the next token is `l` and starts at `start`. -/
def ReadsNext {α : Type} (start : Nat) (l : Lexeme) (before : List Token → Prop) (p : Parse α)
    (found : α → List Token → Prop) : Prop :=
  ∀ read c, c.next = start → Parse.lexemeAt c.ahead 0 = l → c.last = endOf read → before read → ReadsFrom read c p found

/-- Whatever has been read, `p` reads further tokens. -/
class Steps {α : Type} (p : Parse α) : Prop where
  reads : Reads (fun _ => True) p fun _ _ => True

section Triples
variable {α β : Type} {before : List Token → Prop} {p : Parse α} {f : α → Parse β} {found : α → List Token → Prop}
  {result : β → List Token → Prop} {start : Nat} {l : Lexeme}

theorem ReadsFrom.bind {read : List Token} {c : Cursor} (hp : ReadsFrom read c p found)
    (hf : ∀ a, Reads (found a) (f a) result) : ReadsFrom read c (p >>= f) result := by
  intro b c'' h
  rw [StateT.run_bind] at h
  obtain ⟨⟨a, c'⟩, ha, hb⟩ := Option.bind_eq_some_iff.mp h
  obtain ⟨more, hahead, hlast, hfound⟩ := hp a c' ha
  obtain ⟨more', hahead', hlast', hresult⟩ := hf a (read ++ more) c' hlast hfound b c'' hb
  rw [List.append_assoc] at hlast' hresult
  exact ⟨more ++ more', by rw [hahead, hahead', List.append_assoc], hlast', hresult⟩

theorem ReadsFrom.mono {read : List Token} {c : Cursor} {found' : α → List Token → Prop} (h : ReadsFrom read c p found)
    (hfound : ∀ a read, found a read → found' a read) : ReadsFrom read c p found' := by
  intro a c' hrun
  obtain ⟨more, hahead, hlast, ha⟩ := h a c' hrun
  exact ⟨more, hahead, hlast, hfound a _ ha⟩

theorem ReadsFrom.failure {read : List Token} {c : Cursor} : ReadsFrom read c (failure : Parse α) found := by
  intro a c' hrun
  cases hrun

namespace Reads

theorem bind (hp : Reads before p found) (hf : ∀ a, Reads (found a) (f a) result) : Reads before (p >>= f) result :=
  fun read c hc hread => (hp read c hc hread).bind hf

theorem mono {found' : α → List Token → Prop} (h : Reads before p found)
    (hfound : ∀ a read, found a read → found' a read) : Reads before p found' :=
  fun read c hc hread => (h read c hc hread).mono hfound

theorem of_before {before' : List Token → Prop} (h : Reads before p found)
    (hbefore : ∀ read, before' read → before read) : Reads before' p found :=
  fun read c hc hread => h read c hc (hbefore read hread)

theorem steps (h : Reads (fun _ => True) p found) : Steps p := ⟨h.mono fun _ _ _ => trivial⟩

theorem next (h : Reads before p found) : ReadsNext start l before p found := fun read c _ _ => h read c

theorem pure {a : α} (h : ∀ read, before read → found a read) : Reads before (pure a) found := by
  intro read c hc hread b c' hrun
  cases hrun
  exact ⟨[], rfl, by rwa [List.append_nil], by rw [List.append_nil]; exact h read hread⟩

theorem failure : Reads before (failure : Parse α) found := fun _ _ _ _ => ReadsFrom.failure

theorem ite {c : Prop} [Decidable c] {q : Parse α} (hp : c → Reads before p found) (hq : ¬ c → Reads before q found) :
    Reads before (if c then p else q) found := by
  split
  next h => exact hp h
  next h => exact hq h

/-- A parser that only looks at what is ahead. -/
theorem same (h : ∀ c a c', p.run c = some (a, c') → c' = c) : Reads before p fun _ => before := by
  intro read c hc hread a c' hrun
  obtain rfl := h c a c' hrun
  exact ⟨[], rfl, by rwa [List.append_nil], by rwa [List.append_nil]⟩

theorem here {f : Nat → Parse β} (h : ∀ start l, ReadsNext start l before (f start) result) :
    Reads before (Parse.here >>= f) result :=
  fun read c hc hread => h c.next _ read c rfl rfl hc hread

theorem peek {f : Lexeme → Parse β} (h : ∀ start l, ReadsNext start l before (f l) result) :
    Reads before (Parse.peek >>= f) result :=
  fun read c hc hread => h c.next _ read c rfl rfl hc hread

end Reads

namespace ReadsNext

theorem mono {found' : α → List Token → Prop} (h : ReadsNext start l before p found)
    (hfound : ∀ a read, found a read → found' a read) : ReadsNext start l before p found' :=
  fun read c hstart hl hc hread => (h read c hstart hl hc hread).mono hfound

theorem bind (hp : ReadsNext start l before p found) (hf : ∀ a, Reads (found a) (f a) result) :
    ReadsNext start l before (p >>= f) result :=
  fun read c hstart hl hc hread => (hp read c hstart hl hc hread).bind hf

theorem peek {f : Lexeme → Parse β} (h : ReadsNext start l before (f l) result) :
    ReadsNext start l before (Parse.peek >>= f) result := by
  rintro read c hstart rfl
  exact h read c hstart rfl

theorem require {b : Bool} {f : Unit → Parse β} (h : ReadsNext start l before (f ()) result) :
    ReadsNext start l before (Parse.require b >>= f) result := by
  unfold Parse.require
  split
  next => exact h
  next => exact fun read c _ _ _ _ => ReadsFrom.failure

end ReadsNext

/-- What had been read before a step is still there. -/
theorem Steps.frame [h : Steps p] (before : List Token → Prop) : Reads before p fun _ => Behind before fun _ => True := by
  intro read c hc hread a c' hrun
  obtain ⟨more, hahead, hlast, -⟩ := h.reads read c hc trivial a c' hrun
  exact ⟨more, hahead, hlast, read, more, rfl, hread, trivial⟩

theorem Steps.then (h : Steps p) (hf : ∀ a, Steps (f a)) : Steps (p >>= f) :=
  ⟨h.reads.bind fun a => (hf a).reads⟩

instance [h : Steps p] [hf : ∀ a, Steps (f a)] : Steps (p >>= f) := h.then hf

instance (a : α) : Steps (pure a) := ⟨Reads.pure fun _ h => h⟩

instance : Steps (failure : Parse α) := ⟨Reads.failure⟩

instance {c : Prop} [Decidable c] {q : Parse α} [hp : Steps p] [hq : Steps q] : Steps (if c then p else q) :=
  ⟨Reads.ite (fun _ => hp.reads) fun _ => hq.reads⟩

end Triples

/-! ## Single tokens -/

section Single
variable {before : List Token → Prop}

theorem reads_peek : Reads before Parse.peek fun _ => before := Reads.same fun c a c' h => by cases h; rfl

theorem reads_peekSecond : Reads before Parse.peekSecond fun _ => before := Reads.same fun c a c' h => by cases h; rfl

theorem reads_here : Reads before Parse.here fun _ => before := Reads.same fun c a c' h => by cases h; rfl

theorem reads_last : Reads before Parse.last fun stop read => stop = endOf read ∧ before read := by
  intro read c hc hread a c' hrun
  cases hrun
  exact ⟨[], rfl, by rwa [List.append_nil], by rw [List.append_nil]; exact ⟨hc, hread⟩⟩

theorem reads_require (b : Bool) : Reads before (Parse.require b) fun _ => before := by
  unfold Parse.require
  exact Reads.ite (fun _ => Reads.pure fun _ h => h) fun _ => Reads.failure

theorem readsNext_advance (start : Nat) (l : Lexeme) :
    ReadsNext start l before Parse.advance fun _ => Behind before (SingleAt start l) := by
  intro read c hstart hl hc hread a c' hrun
  obtain ⟨ahead, last⟩ := c
  cases ahead with
  | nil => cases hrun
  | cons t ahead =>
    cases hrun
    exact ⟨[t], rfl, (endOf_append_singleton read t).symm, read, [t], rfl, hread, t, rfl, hstart, hl⟩

theorem readsNext_single (start : Nat) (l : Lexeme) :
    ReadsNext start l before Parse.advance fun _ => Behind before (Single l) :=
  (readsNext_advance start l).mono fun _ _ h => h.mono fun _ h => ⟨start, h⟩

theorem reads_expect (l : Lexeme) : Reads before (Parse.expect l) fun _ => Behind before (Single l) := by
  unfold Parse.expect
  refine Reads.peek fun start next => ?_
  split
  next hnext => exact hnext ▸ readsNext_single start next
  next => exact Reads.failure.next

/-- What is read when a token is accepted, or else from the same place. -/
theorem ReadsNext.accept_ite {β : Type} {p q : Parse β} {result : β → List Token → Prop} {start : Nat} {next : Lexeme}
    (l : Lexeme) (hp : Reads (Behind before (SingleAt start l)) p result) (hq : ReadsNext start next before q result) :
    ReadsNext start next before (Parse.accept l >>= fun accepted => if accepted = true then p else q) result := by
  intro read c hstart hl hc hread
  have hasked : (Parse.accept l >>= fun accepted => if accepted = true then p else q).run c =
      if Parse.lexemeAt c.ahead 0 = l then (Parse.advance >>= fun _ => p).run c else q.run c := by
    show ((if Parse.lexemeAt c.ahead 0 = l then Parse.advance >>= fun _ => pure true else pure false) >>=
      fun accepted => if accepted = true then p else q).run c = _
    split
    next => rw [bind_assoc]; rfl
    next => rfl
  unfold ReadsFrom
  rw [hasked]
  split
  next hnext => exact (readsNext_advance start l).bind (fun _ => hp) read c hstart hnext hc hread
  next => exact hq read c hstart hl hc hread

theorem reads_accept_ite {β : Type} {p q : Parse β} {result : β → List Token → Prop} (l : Lexeme)
    (hp : Reads (Behind before (Single l)) p result) (hq : Reads before q result) :
    Reads before (Parse.accept l >>= fun accepted => if accepted = true then p else q) result := by
  intro read c hc hread
  refine ReadsNext.accept_ite l ?_ hq.next read c rfl rfl hc hread
  exact hp.of_before fun _ h => h.mono fun _ h => ⟨c.next, h⟩

end Single

instance : Steps Parse.peek := reads_peek.steps

instance : Steps Parse.peekSecond := reads_peekSecond.steps

instance : Steps Parse.here := reads_here.steps

instance : Steps Parse.last := reads_last.steps

instance : Steps Parse.advance := by
  refine ⟨fun read c hc hread a c' hrun => ?_⟩
  obtain ⟨more, hahead, hlast, -⟩ := @readsNext_advance (fun _ => True) c.next _ read c rfl rfl hc hread a c' hrun
  exact ⟨more, hahead, hlast, trivial⟩

instance (b : Bool) : Steps (Parse.require b) := (reads_require b).steps

instance (l : Lexeme) : Steps (Parse.expect l) := (reads_expect l).steps

instance (l : Lexeme) : Steps (Parse.accept l) := by
  unfold Parse.accept
  infer_instance

end Traceback.Code
