import Mathlib.Data.List.Forall2
import Traceback.Proofs.Json.Ignoring
import Traceback.Proofs.Json.Writing

/-! # Records as they are written

A record is written as an object whose members stand in any order, each at most once, with members of other names among
them. Whatever has its default may be left out.

* `Slot`, `Writing.record`: the members of a record and the texts for it.
* `Fits`, `Lawful`: the members as they are read, and what ties them to the record.
* `membersOf_ok`, `membersOf_error`: reading the members of an object, by induction on those that remain.
* `follows_record`: complete texts are read as the record, and the others are refused.
* `parse_ok`, `parse_error`: a value with nothing but white space around it.
-/

namespace Traceback.Json
set_option autoImplicit false

open Read

variable {α σ : Type}

/-! ## Texts for records -/

/-- A member of records of a type. -/
structure Slot (σ : Type) where
  name : String
  {β : Type}
  get : σ → β
  put : σ → β → σ
  /-- What the member is when it is left out, unless it is required. -/
  default? : Option β
  writing : Writing β

/-- A member as it stands in an object, and the number of required members left out in its value. -/
structure Mention where
  name : Text
  gaps : Nat
  pair : Pair

/-- What may stand in an object for the record `e`. -/
inductive IsMention (slots : List (Slot σ)) (e : σ) : Mention → Prop where
  | known {f : Slot σ} {gaps : Nat} {pair : Pair} (hf : f ∈ slots) (hkey : WritesText f.name.toList pair.key)
      (hspaced : pair.Spaced) (hvalue : f.writing gaps (f.get e) pair.value) :
    IsMention slots e ⟨f.name.toList, gaps, pair⟩
  | unknown {name : Text} {pair : Pair} (hname : ∀ f ∈ slots, f.name.toList ≠ name) (hkey : WritesText name pair.key)
      (hspaced : pair.Spaced) (hvalue : IsValue pair.value) : IsMention slots e ⟨name, 0, pair⟩

/-- None of the mentions is the member. -/
def Absent (f : Slot σ) (mentions : List Mention) : Prop := ∀ x ∈ mentions, x.name ≠ f.name.toList

instance (f : Slot σ) (mentions : List Mention) : Decidable (Absent f mentions) :=
  inferInstanceAs (Decidable (∀ x ∈ mentions, x.name ≠ f.name.toList))

/-- The required members that are left out. -/
def lacking (slots : List (Slot σ)) (mentions : List Mention) : List (Slot σ) :=
  slots.filter fun f => f.default?.isNone && decide (Absent f mentions)

theorem mem_lacking {slots : List (Slot σ)} {mentions : List Mention} {f : Slot σ} :
    f ∈ lacking slots mentions ↔ f ∈ slots ∧ f.default? = none ∧ Absent f mentions := by
  simp [lacking]

/-- Records whose braces are the outermost of at most `levels` pairs of brackets. -/
inductive Writing.record (levels : Nat) (slots : List (Slot σ)) : Writing σ where
  | braces {e : σ} {mentions : List Mention} {body : Text} (hlevels : 0 < levels)
      (hmentions : ∀ x ∈ mentions, IsMention slots e x)
      (honce : mentions.Pairwise fun x y => x.name = y.name → ∀ f ∈ slots, f.name.toList ≠ x.name)
      (hdefaults : ∀ f ∈ slots, Absent f mentions → f.default? = none ∨ f.default? = some (f.get e))
      (hbody : Body (mentions.map fun x => x.pair.text) body) :
    record levels slots ((mentions.map Mention.gaps).sum + (lacking slots mentions).length) e ('{' :: (body ++ ['}']))

/-- A record can be written if its members can, by writing them all. -/
theorem exists_record {levels : Nat} (hlevels : 0 < levels) {slots : List (Slot σ)}
    (hnodup : (slots.map Slot.name).Nodup) {e : σ} (h : ∀ f ∈ slots, ∃ t, f.writing 0 (f.get e) t) :
    ∃ t, Writing.record levels slots 0 e t := by
  have hmentions : ∀ fs : List (Slot σ), (∀ f ∈ fs, f ∈ slots) → ∃ mentions : List Mention,
      mentions.map Mention.name = fs.map (fun f => f.name.toList) ∧ (mentions.map Mention.gaps).sum = 0 ∧
        ∀ x ∈ mentions, IsMention slots e x := by
    intro fs hfs
    induction fs with
    | nil => exact ⟨[], rfl, rfl, List.forall_mem_nil _⟩
    | cons f fs ih =>
      obtain ⟨hf, hfs⟩ := List.forall_mem_cons.mp hfs
      obtain ⟨value, hvalue⟩ := h f hf
      obtain ⟨key, hkey⟩ := exists_writesText f.name.toList
      obtain ⟨mentions, hnames, hgaps, hw⟩ := ih hfs
      refine ⟨⟨f.name.toList, 0, ⟨key, [], [], value⟩⟩ :: mentions, ?_, by simpa using hgaps, ?_⟩
      · rw [List.map_cons, hnames, List.map_cons]
      · exact List.forall_mem_cons.mpr ⟨.known hf hkey ⟨spaces_nil, spaces_nil⟩ hvalue, hw⟩
  obtain ⟨mentions, hnames, hgaps, hw⟩ := hmentions slots fun _ hf => hf
  have hpresent : ∀ f ∈ slots, ¬ Absent f mentions := by
    intro f hf habsent
    have hmem : f.name.toList ∈ mentions.map Mention.name := by
      rw [hnames]
      exact List.mem_map_of_mem hf
    obtain ⟨x, hx, hname⟩ := List.mem_map.mp hmem
    exact habsent x hx hname
  have honce : mentions.Pairwise fun x y => x.name = y.name → ∀ f ∈ slots, f.name.toList ≠ x.name := by
    have hdistinct : (mentions.map Mention.name).Nodup := by
      rw [hnames]
      exact List.pairwise_map.mpr ((List.pairwise_map.mp hnodup).imp fun hne heq => hne (String.toList_inj.mp heq))
    exact (List.pairwise_map.mp hdistinct).imp fun hne heq => absurd heq hne
  have hlacking : lacking slots mentions = [] := by
    refine List.eq_nil_iff_forall_not_mem.mpr fun f hf => ?_
    obtain ⟨hf, -, habsent⟩ := mem_lacking.mp hf
    exact hpresent f hf habsent
  obtain ⟨body, hbody⟩ := exists_body (mentions.map fun x => x.pair.text)
  have hrecord := Writing.record.braces hlevels hw honce (fun f hf habsent => absurd habsent (hpresent f hf)) hbody
  rw [hgaps, hlacking] at hrecord
  exact ⟨_, hrecord⟩

/-! ## Members as they are read -/

/-- The member is read as the slot says that it is written. -/
def Fits (m : Member σ) (f : Slot σ) : Prop :=
  ∃ r : Read f.β, Follows r f.writing ∧ m = ⟨f.name, f.default?.isNone, fun e => do return f.put e (← r)⟩

/-- A record is made up of its members, each of which is replaced without the others. -/
structure Lawful (slots : List (Slot σ)) (empty : σ) : Prop where
  nodup : (slots.map Slot.name).Nodup
  get_put : ∀ f ∈ slots, ∀ g ∈ slots, ∀ r e, g.get (f.put r (f.get e)) = if g.name = f.name then g.get e else g.get r
  ext : ∀ {r e}, (∀ f ∈ slots, f.get r = f.get e) → r = e
  get_empty : ∀ f ∈ slots, ∀ d ∈ f.default?, f.get empty = d

/-- The record `r` has the members `seen` of `e` and otherwise those that every record begins with. -/
def Holds (slots : List (Slot σ)) (empty e : σ) (seen : List String) (r : σ) : Prop :=
  ∀ f ∈ slots, f.get r = if f.name ∈ seen then f.get e else f.get empty

theorem holds_nil (slots : List (Slot σ)) (empty e : σ) : Holds slots empty e [] empty := fun _ _ => rfl

section Members
variable {members : List (Member σ)} {slots : List (Slot σ)} {empty e r : σ} {f : Slot σ} {seen : List String}

theorem holds_put (hlawful : Lawful slots empty) (h : Holds slots empty e seen r) (hf : f ∈ slots) :
    Holds slots empty e (f.name :: seen) (f.put r (f.get e)) := by
  intro g hg
  rw [hlawful.get_put f hf g hg, h g hg]
  by_cases hname : g.name = f.name
  · simp [hname]
  · simp [hname]

theorem find?_known (hfits : List.Forall₂ Fits members slots) (hnodup : (slots.map Slot.name).Nodup) (hf : f ∈ slots) :
    ∃ m, Fits m f ∧ members.find? (fun m => m.name.toList = f.name.toList) = some m := by
  induction hfits with
  | nil => cases hf
  | @cons m g members slots hm _ ih =>
    obtain ⟨hnotMem, hnodup⟩ := List.nodup_cons.mp hnodup
    have hname : m.name = g.name := by
      obtain ⟨_, -, rfl⟩ := hm
      rfl
    rcases List.mem_cons.mp hf with rfl | hf
    · exact ⟨m, hm, by simp [hname]⟩
    · obtain ⟨m', hm', hfind⟩ := ih hnodup hf
      have hne : m.name.toList ≠ f.name.toList := by
        intro heq
        rw [hname, String.toList_inj] at heq
        exact hnotMem (heq ▸ List.mem_map_of_mem hf)
      exact ⟨m', hm', by rw [List.find?_cons_of_neg (by simpa using hne), hfind]⟩

theorem find?_unknown (hfits : List.Forall₂ Fits members slots) {name : Text}
    (hname : ∀ f ∈ slots, f.name.toList ≠ name) : members.find? (fun m => m.name.toList = name) = none := by
  induction hfits with
  | nil => rfl
  | @cons m g members slots hm _ ih =>
    obtain ⟨hfirst, hname⟩ := List.forall_mem_cons.mp hname
    obtain ⟨_, -, rfl⟩ := hm
    rw [List.find?_cons_of_neg (by simpa using hfirst), ih hname]

/-- A required member is missing exactly if its slot is required and has not been seen. -/
theorem find?_missing (hfits : List.Forall₂ Fits members slots) :
    (members.find? fun m => m.required && !seen.contains m.name) = none ↔
      ∀ f ∈ slots, f.default? = none → f.name ∈ seen := by
  rw [List.find?_eq_none]
  induction hfits with
  | nil => exact iff_of_true (List.forall_mem_nil _) (List.forall_mem_nil _)
  | cons hm _ ih =>
    obtain ⟨_, -, rfl⟩ := hm
    rw [List.forall_mem_cons, List.forall_mem_cons, ih]
    simp [Option.isNone_iff_eq_none]

end Members

/-! ## The members of an object -/

namespace Read

theorem nextMember_done {first : Bool} {t : Text} (h : Remains first [] t) (rest : Text) (p : Place) :
    ∃ q, nextMember first ⟨t ++ '}' :: rest, p⟩ = .ok (false, ⟨'}' :: rest, q⟩) := by
  obtain ⟨q, hq⟩ := token_spaces h.spaces (c := '}') rfl rest p
  exact ⟨q, by rw [nextMember, bind_ok hq]; rfl⟩

theorem nextMember_item {first : Bool} {s : Text} {items : List Text} {t : Text}
    (h : Remains first (('"' :: s) :: items) t) (rest : Text) (p : Place) :
    ∃ tail q, Remains false items tail ∧
      nextMember first ⟨t ++ '}' :: rest, p⟩ = .ok (true, ⟨'"' :: (s ++ (tail ++ '}' :: rest)), q⟩) := by
  obtain ⟨before, tail, hbefore, htail, ht⟩ := h.next
  have htoken := token_spaces hbefore (c := '"') rfl (s ++ (tail ++ '}' :: rest))
  cases first with
  | true =>
    obtain ⟨q, hq⟩ := htoken p
    refine ⟨tail, q, htail, ?_⟩
    rw [if_pos rfl] at ht
    rw [ht, List.append_assoc, List.append_assoc, List.cons_append, nextMember, bind_ok hq]
    rfl
  | false =>
    obtain ⟨after, hafter, rfl⟩ := ht
    obtain ⟨q, hq⟩ := token_spaces hafter (c := ',') rfl (before ++ '"' :: (s ++ (tail ++ '}' :: rest))) p
    obtain ⟨q', hq'⟩ := htoken (q.after ',')
    refine ⟨tail, q', htail, ?_⟩
    simp only [List.append_assoc, List.cons_append]
    rw [nextMember, bind_ok hq]
    refine (bind_ok (a := '"') (d := ⟨'"' :: (s ++ (tail ++ '}' :: rest)), q'⟩) ?_).trans rfl
    refine (bind_ok (skip_cons ..)).trans ?_
    rw [bind_ok hq']
    rfl

theorem colon_ok {before : Text} (hbefore : Spaces before) (rest : Text) (p : Place) :
    ∃ q, colon ⟨before ++ ':' :: rest, p⟩ = .ok ((), ⟨rest, q⟩) := by
  obtain ⟨q, hq⟩ := token_spaces hbefore (c := ':') rfl rest p
  exact ⟨q.after ':', by rw [colon, bind_ok hq]; rfl⟩

theorem endObject_ok (rest : Text) (p : Place) : ∃ q, endObject ⟨'}' :: rest, p⟩ = .ok ((), ⟨rest, q⟩) := by
  obtain ⟨q, hq⟩ := token_spaces spaces_nil (c := '}') rfl rest p
  rw [List.nil_append] at hq
  exact ⟨q.after '}', by rw [endObject, bind_ok hq]; rfl⟩

theorem faultInObject_error (reason : Reason) (rest : Text) (p : Place) :
    ∃ f, (faultInObject reason : Read α) ⟨'}' :: rest, p⟩ = .error f := by
  obtain ⟨q, hq⟩ := token_spaces spaces_nil (c := '}') rfl rest p
  rw [List.nil_append] at hq
  exact ⟨⟨reason, q.after '}'⟩, by rw [faultInObject, bind_ok hq]; rfl⟩

section Steps
variable {members : List (Member σ)} {slots : List (Slot σ)} {e r : σ} {f : Slot σ} {first : Bool}
  {seen : List String} {name : Text} {pair : Pair} {items : List Text} {t : Text}

/-- The name of the next member is read, and what is found under it decides. -/
theorem membersOf_name (members : List (Member σ)) (seen : List String) (r : σ) (hkey : WritesText name pair.key)
    (h : Remains first (pair.text :: items) t) (fuel : Nat) (rest : Text) (p : Place) :
    ∃ tail q, Remains false items tail ∧ membersOf members (fuel + 1) first seen r ⟨t ++ '}' :: rest, p⟩ =
      (match members.find? (fun m => m.name.toList = name) with
        | none => do
          colon
          ignored
          membersOf members fuel false seen r
        | some m =>
          if seen.contains m.name then faultInObject (.duplicate m.name)
          else do
            colon
            let r ← m.read r
            membersOf members fuel false (m.name :: seen) r : Read σ)
        ⟨pair.before ++ ':' :: (pair.after ++ (pair.value ++ (tail ++ '}' :: rest))), q⟩ := by
  obtain ⟨key, front, back, value⟩ := pair
  obtain @⟨inner, hinner⟩ := hkey
  have htext : Pair.text ⟨'"' :: (inner ++ ['"']), front, back, value⟩ =
      '"' :: (inner ++ '"' :: (front ++ ':' :: (back ++ value))) := by simp [Pair.text]
  rw [htext] at h
  obtain ⟨tail, q, htail, hq⟩ := nextMember_item h rest p
  obtain ⟨q', hq'⟩ := string_append hinner (front ++ ':' :: (back ++ (value ++ (tail ++ '}' :: rest)))) (q.after '"')
  refine ⟨tail, q', htail, ?_⟩
  rw [membersOf, bind_ok hq, if_pos rfl, bind_ok (skip_cons ..)]
  simp only [List.append_assoc, List.cons_append]
  exact bind_ok hq'

theorem membersOf_unknown (hfits : List.Forall₂ Fits members slots) (hname : ∀ f ∈ slots, f.name.toList ≠ name)
    (hkey : WritesText name pair.key) (hspaced : pair.Spaced) (hvalue : IsValue pair.value)
    (h : Remains first (pair.text :: items) t) (fuel : Nat) (rest : Text) (p : Place) :
    ∃ tail q, Remains false items tail ∧ membersOf members (fuel + 1) first seen r ⟨t ++ '}' :: rest, p⟩ =
      membersOf members fuel false seen r ⟨tail ++ '}' :: rest, q⟩ := by
  obtain ⟨tail, q, htail, hq⟩ := membersOf_name members seen r hkey h fuel rest p
  obtain ⟨q', hq'⟩ := colon_ok hspaced.1 (pair.after ++ (pair.value ++ (tail ++ '}' :: rest))) q
  obtain ⟨q'', hq''⟩ := reads_ignored hvalue q' hspaced.2 (htail.stops (c := '}') (by decide) rest)
  refine ⟨tail, q'', htail, ?_⟩
  rw [hq, find?_unknown hfits hname]
  exact (bind_ok hq').trans (bind_ok hq'')

/-- A member that has not been seen is read behind its colon. -/
theorem membersOf_fresh (hfits : List.Forall₂ Fits members slots) (hnodup : (slots.map Slot.name).Nodup)
    (hf : f ∈ slots) (hseen : f.name ∉ seen) (hkey : WritesText f.name.toList pair.key) (hspaced : pair.Spaced)
    (h : Remains first (pair.text :: items) t) (fuel : Nat) (rest : Text) (p : Place) :
    ∃ read : Read f.β, Follows read f.writing ∧ ∃ tail q, Remains false items tail ∧
      membersOf members (fuel + 1) first seen r ⟨t ++ '}' :: rest, p⟩ =
        (do
          let r ← (do return f.put r (← read))
          membersOf members fuel false (f.name :: seen) r)
          ⟨pair.after ++ (pair.value ++ (tail ++ '}' :: rest)), q⟩ := by
  obtain ⟨m, ⟨read, hfollows, rfl⟩, hfind⟩ := find?_known hfits hnodup hf
  obtain ⟨tail, q, htail, hq⟩ := membersOf_name members seen r hkey h fuel rest p
  obtain ⟨q', hq'⟩ := colon_ok hspaced.1 (pair.after ++ (pair.value ++ (tail ++ '}' :: rest))) q
  refine ⟨read, hfollows, tail, q', htail, ?_⟩
  rw [hq, hfind]
  simp only
  rw [if_neg (by simpa using hseen), bind_ok hq']

theorem membersOf_known (hfits : List.Forall₂ Fits members slots) (hnodup : (slots.map Slot.name).Nodup)
    (hf : f ∈ slots) (hseen : f.name ∉ seen) (hkey : WritesText f.name.toList pair.key) (hspaced : pair.Spaced)
    (hvalue : f.writing 0 (f.get e) pair.value) (h : Remains first (pair.text :: items) t) (fuel : Nat) (rest : Text)
    (p : Place) :
    ∃ tail q, Remains false items tail ∧ membersOf members (fuel + 1) first seen r ⟨t ++ '}' :: rest, p⟩ =
      membersOf members fuel false (f.name :: seen) (f.put r (f.get e)) ⟨tail ++ '}' :: rest, q⟩ := by
  obtain ⟨read, hfollows, tail, q, htail, hq⟩ :=
    membersOf_fresh (r := r) hfits hnodup hf hseen hkey hspaced h fuel rest p
  obtain ⟨q', hq'⟩ := hfollows.reads hvalue q hspaced.2 (htail.stops (c := '}') (by decide) rest)
  refine ⟨tail, q', htail, ?_⟩
  rw [hq]
  exact bind_ok (bind_ok hq')

theorem membersOf_gap (hfits : List.Forall₂ Fits members slots) (hnodup : (slots.map Slot.name).Nodup)
    (hf : f ∈ slots) (hseen : f.name ∉ seen) (hkey : WritesText f.name.toList pair.key) (hspaced : pair.Spaced)
    {gaps : Nat} (hvalue : f.writing gaps (f.get e) pair.value) (hgaps : gaps ≠ 0)
    (h : Remains first (pair.text :: items) t) (fuel : Nat) (rest : Text) (p : Place) :
    ∃ fault, membersOf members (fuel + 1) first seen r ⟨t ++ '}' :: rest, p⟩ = .error fault := by
  obtain ⟨read, hfollows, tail, q, htail, hq⟩ :=
    membersOf_fresh (r := r) hfits hnodup hf hseen hkey hspaced h fuel rest p
  obtain ⟨fault, hfault⟩ := hfollows.refuses hvalue hgaps q hspaced.2 (htail.stops (c := '}') (by decide) rest)
  refine ⟨fault, ?_⟩
  rw [hq]
  exact bind_error (bind_error hfault)

end Steps

section Runs
variable {members : List (Member σ)} {slots : List (Slot σ)} {empty e r : σ} {mentions : List Mention} {first : Bool}
  {seen : List String} {t : Text} {fuel : Nat}

/-- The mentions are for `e`, and none of its members comes again, those `seen` before included. -/
structure Fresh (slots : List (Slot σ)) (e : σ) (seen : List String) (mentions : List Mention) : Prop where
  isMention : ∀ x ∈ mentions, IsMention slots e x
  once : mentions.Pairwise fun x y => x.name = y.name → ∀ f ∈ slots, f.name.toList ≠ x.name
  unseen : ∀ x ∈ mentions, ∀ n ∈ seen, x.name ≠ n.toList

theorem Fresh.known {f : Slot σ} {gaps : Nat} {pair : Pair} (hf : f ∈ slots)
    (h : Fresh slots e seen (⟨f.name.toList, gaps, pair⟩ :: mentions)) :
    f.name ∉ seen ∧ Fresh slots e (f.name :: seen) mentions := by
  obtain ⟨hfirst, honce⟩ := List.pairwise_cons.mp h.once
  obtain ⟨hunseen, hlater⟩ := List.forall_mem_cons.mp h.unseen
  refine ⟨fun hmem => hunseen _ hmem rfl, (List.forall_mem_cons.mp h.isMention).2, honce, fun y hy => ?_⟩
  refine List.forall_mem_cons.mpr ⟨fun heq => ?_, hlater y hy⟩
  exact hfirst y hy heq.symm f hf rfl

theorem Fresh.unknown {x : Mention} (h : Fresh slots e seen (x :: mentions)) : Fresh slots e seen mentions :=
  ⟨(List.forall_mem_cons.mp h.isMention).2, (List.pairwise_cons.mp h.once).2, (List.forall_mem_cons.mp h.unseen).2⟩

/-- The end of an object, where every member has been seen or has its default. -/
theorem eq_of_holds (hlawful : Lawful slots empty) (hholds : Holds slots empty e seen r)
    (hdefaults : ∀ f ∈ slots, f.name ∉ seen → f.default? = some (f.get e)) : r = e := by
  refine hlawful.ext fun f hf => ?_
  rw [hholds f hf]
  by_cases hseen : f.name ∈ seen
  · rw [if_pos hseen]
  · rw [if_neg hseen, hlawful.get_empty f hf _ (hdefaults f hf hseen)]

theorem membersOf_ok (hfits : List.Forall₂ Fits members slots) (hlawful : Lawful slots empty)
    (hfresh : Fresh slots e seen mentions) (hgaps : ∀ x ∈ mentions, x.gaps = 0)
    (hdefaults : ∀ f ∈ slots, f.name ∉ seen → Absent f mentions → f.default? = some (f.get e))
    (hholds : Holds slots empty e seen r) (h : Remains first (mentions.map fun x => x.pair.text) t)
    (hfuel : mentions.length < fuel) (rest : Text) (p : Place) :
    ∃ q, membersOf members fuel first seen r ⟨t ++ '}' :: rest, p⟩ = .ok (e, ⟨'}' :: rest, q⟩) := by
  obtain ⟨fuel, rfl⟩ : ∃ n, fuel = n + 1 := ⟨fuel - 1, by omega⟩
  -- On the mentions that remain; `hholds` says what those before them have left in the record.
  induction mentions generalizing first seen r t fuel p with
  | nil =>
    have hlast : ∀ f ∈ slots, f.name ∉ seen → f.default? = some (f.get e) := fun f hf hseen =>
      hdefaults f hf hseen (List.forall_mem_nil _)
    have hrequired : ∀ f ∈ slots, f.default? = none → f.name ∈ seen := by
      intro f hf hnone
      by_cases hseen : f.name ∈ seen
      · exact hseen
      · rw [hlast f hf hseen] at hnone
        cases hnone
    obtain ⟨q, hq⟩ := nextMember_done h rest p
    refine ⟨q, ?_⟩
    rw [membersOf, bind_ok hq, if_neg Bool.false_ne_true, (find?_missing hfits).mpr hrequired]
    simp only
    rw [pure_ok, eq_of_holds hlawful hholds hlast]
  | cons x mentions ih =>
    rw [List.length_cons] at hfuel
    obtain ⟨fuel', rfl⟩ : ∃ n, fuel = n + 1 := ⟨fuel - 1, by omega⟩
    obtain ⟨hgap, hzero⟩ := List.forall_mem_cons.mp hgaps
    cases hfresh.isMention x (List.mem_cons_self ..) with
    | @known f gaps pair hf hkey hspaced hvalue =>
      obtain ⟨hseen, hlater⟩ := hfresh.known hf
      obtain rfl : gaps = 0 := hgap
      obtain ⟨tail, q, htail, hq⟩ :=
        membersOf_known (r := r) hfits hlawful.nodup hf hseen hkey hspaced hvalue h (fuel' + 1) rest p
      -- What has not been seen now had not been seen before, and is not this member either.
      have hrest : ∀ g ∈ slots, g.name ∉ f.name :: seen → Absent g mentions → g.default? = some (g.get e) := by
        intro g hg hunseen habsent
        obtain ⟨hne, hunseen⟩ := List.ne_and_not_mem_of_not_mem_cons hunseen
        refine hdefaults g hg hunseen (List.forall_mem_cons.mpr ⟨fun heq => ?_, habsent⟩)
        exact hne (String.toList_inj.mp heq).symm
      obtain ⟨q', hq'⟩ := ih hlater hzero hrest (holds_put hlawful hholds hf) htail q fuel' (by omega)
      exact ⟨q', hq.trans hq'⟩
    | @unknown name pair hname hkey hspaced hvalue =>
      obtain ⟨tail, q, htail, hq⟩ :=
        membersOf_unknown (r := r) hfits hname hkey hspaced hvalue h (fuel' + 1) rest p
      have hrest : ∀ g ∈ slots, g.name ∉ seen → Absent g mentions → g.default? = some (g.get e) :=
        fun g hg hunseen habsent =>
          hdefaults g hg hunseen (List.forall_mem_cons.mpr ⟨fun heq => hname g hg heq.symm, habsent⟩)
      obtain ⟨q', hq'⟩ := ih hfresh.unknown hzero hrest hholds htail q fuel' (by omega)
      exact ⟨q', hq.trans hq'⟩

/-- Something required is left out, in one of the mentions or as a whole. -/
def Incomplete (slots : List (Slot σ)) (seen : List String) (mentions : List Mention) : Prop :=
  (∃ x ∈ mentions, x.gaps ≠ 0) ∨ ∃ f ∈ slots, f.default? = none ∧ f.name ∉ seen ∧ Absent f mentions

/-- What is left out is left out behind an entry that is complete. -/
theorem Incomplete.tail {x : Mention} {later : List String} (h : Incomplete slots seen (x :: mentions))
    (hgaps : x.gaps = 0) (hlater : ∀ f ∈ slots, x.name ≠ f.name.toList → f.name ∉ seen → f.name ∉ later) :
    Incomplete slots later mentions := by
  rcases h with ⟨y, hy, hne⟩ | ⟨f, hf, hrequired, hseen, habsent⟩
  · rcases List.mem_cons.mp hy with rfl | hy
    · exact absurd hgaps hne
    · exact .inl ⟨y, hy, hne⟩
  · obtain ⟨hfirst, habsent⟩ := List.forall_mem_cons.mp habsent
    exact .inr ⟨f, hf, hrequired, hlater f hf hfirst hseen, habsent⟩

theorem membersOf_error (hfits : List.Forall₂ Fits members slots) (hnodup : (slots.map Slot.name).Nodup)
    (hfresh : Fresh slots e seen mentions) (hincomplete : Incomplete slots seen mentions)
    (h : Remains first (mentions.map fun x => x.pair.text) t) (hfuel : mentions.length < fuel) (rest : Text)
    (p : Place) : ∃ fault, membersOf members fuel first seen r ⟨t ++ '}' :: rest, p⟩ = .error fault := by
  obtain ⟨fuel, rfl⟩ : ∃ n, fuel = n + 1 := ⟨fuel - 1, by omega⟩
  -- The fault comes with the first gap in a value, or else at the end of the object.
  induction mentions generalizing first seen r t fuel p with
  | nil =>
    have hsome : (members.find? fun m => m.required && !seen.contains m.name) ≠ none := by
      rw [Ne, find?_missing hfits]
      intro hall
      rcases hincomplete with ⟨x, hx, -⟩ | ⟨f, hf, hrequired, hseen, -⟩
      · cases hx
      · exact hseen (hall f hf hrequired)
    obtain ⟨m, hm⟩ := Option.ne_none_iff_exists'.mp hsome
    obtain ⟨q, hq⟩ := nextMember_done h rest p
    rw [membersOf, bind_ok hq, if_neg Bool.false_ne_true, hm]
    exact faultInObject_error (.missing m.name) rest q
  | cons x mentions ih =>
    rw [List.length_cons] at hfuel
    obtain ⟨fuel', rfl⟩ : ∃ n, fuel = n + 1 := ⟨fuel - 1, by omega⟩
    cases hfresh.isMention x (List.mem_cons_self ..) with
    | @known f gaps pair hf hkey hspaced hvalue =>
      obtain ⟨hseen, hlater⟩ := hfresh.known hf
      by_cases hgaps : gaps = 0
      · subst hgaps
        obtain ⟨tail, q, htail, hq⟩ :=
          membersOf_known (r := r) hfits hnodup hf hseen hkey hspaced hvalue h (fuel' + 1) rest p
        have hrest : Incomplete slots (f.name :: seen) mentions := by
          refine hincomplete.tail rfl fun g _ hne hunseen hmem => ?_
          rcases List.mem_cons.mp hmem with heq | hmem
          · exact hne (congrArg String.toList heq.symm)
          · exact hunseen hmem
        obtain ⟨fault, hfault⟩ := ih hlater hrest htail q fuel' (by omega)
        exact ⟨fault, hq.trans hfault⟩
      · exact membersOf_gap hfits hnodup hf hseen hkey hspaced hvalue hgaps h (fuel' + 1) rest p
    | @unknown name pair hname hkey hspaced hvalue =>
      obtain ⟨tail, q, htail, hq⟩ :=
        membersOf_unknown (r := r) hfits hname hkey hspaced hvalue h (fuel' + 1) rest p
      have hrest : Incomplete slots seen mentions := hincomplete.tail rfl fun _ _ _ hunseen => hunseen
      obtain ⟨fault, hfault⟩ := ih hfresh.unknown hrest htail q fuel' (by omega)
      exact ⟨fault, hq.trans hfault⟩

end Runs

/-- The members are read once the brace has been opened. -/
theorem record_brace (name : String) (members : List (Member σ)) (empty : σ) {levels : Nat} (hlevels : 0 < levels)
    {before : Text} (hbefore : Spaces before) (body rest : Text) (p : Place) :
    ∃ q, Read.record name members levels empty ⟨before ++ ('{' :: (body ++ ['}']) ++ rest), p⟩ = (do
      let r ← membersOf members ((body ++ '}' :: rest).length + 1) true [] empty
      endObject
      return r) ⟨body ++ '}' :: rest, q⟩ := by
  obtain ⟨q, hq⟩ := valueToken_spaces hbefore (c := '{') rfl (body ++ '}' :: rest) p
  refine ⟨q.after '{', ?_⟩
  rw [List.cons_append, List.append_assoc, List.singleton_append, Read.record, bind_ok hq, if_neg (by decide),
    if_pos rfl, bind_ok (openBracket_ok hlevels ..), bind_ok (get_ok _)]

end Read

/-! ## Records -/

theorem opens_record {levels : Nat} {slots : List (Slot σ)} : Opens (Writing.record levels slots) := by
  rintro gaps e t ⟨_, _, _, _, _⟩
  exact ⟨'{', _, rfl, .inl (by decide)⟩

theorem follows_record {members : List (Member σ)} {slots : List (Slot σ)} {empty : σ}
    (hfits : List.Forall₂ Fits members slots) (hlawful : Lawful slots empty) (name : String) (levels : Nat) :
    Follows (Read.record name members levels empty) (Writing.record levels slots) := by
  have hfirst : ∀ {e : σ} {mentions : List Mention}, (∀ x ∈ mentions, IsMention slots e x) →
      (mentions.Pairwise fun x y => x.name = y.name → ∀ f ∈ slots, f.name.toList ≠ x.name) →
      Fresh slots e [] mentions :=
    fun hmentions honce => ⟨hmentions, honce, fun _ _ => List.forall_mem_nil _⟩
  constructor
  · intro e t hw
    generalize hsum : 0 = gaps at hw
    obtain @⟨_, mentions, body, hlevels, hmentions, honce, hdefaults, hbody⟩ := hw
    intro before rest p hbefore _
    obtain ⟨q, hq⟩ := record_brace name members empty hlevels hbefore body rest p
    obtain ⟨hgaps, hlacking⟩ := Nat.add_eq_zero_iff.mp hsum.symm
    have hdefault : ∀ f ∈ slots, f.name ∉ [] → Absent f mentions → f.default? = some (f.get e) := by
      intro f hf _ habsent
      rcases hdefaults f hf habsent with hnone | hdefault
      · have hmem : f ∈ lacking slots mentions := mem_lacking.mpr ⟨hf, hnone, habsent⟩
        rw [List.length_eq_zero_iff.mp hlacking] at hmem
        cases hmem
      · exact hdefault
    obtain ⟨q', hq'⟩ := membersOf_ok hfits hlawful (hfirst hmentions honce)
      (List.forall_mem_map.mp (List.sum_eq_zero_iff_forall_eq_nat.mp hgaps)) hdefault
      (holds_nil slots empty e) (.all hbody) (hbody.length_lt '}' rest) rest q
    obtain ⟨q'', hq''⟩ := endObject_ok rest q'
    exact ⟨q'', by rw [hq, bind_ok hq', bind_ok hq'', pure_ok]⟩
  · intro gaps e t hw hsum
    obtain @⟨_, mentions, body, hlevels, hmentions, honce, hdefaults, hbody⟩ := hw
    intro before rest p hbefore _
    obtain ⟨q, hq⟩ := record_brace name members empty hlevels hbefore body rest p
    have hincomplete : Incomplete slots [] mentions := by
      by_cases hgaps : (mentions.map Mention.gaps).sum = 0
      · obtain ⟨f, hf⟩ := List.exists_mem_of_length_pos (l := lacking slots mentions) (by omega)
        obtain ⟨hf, hrequired, habsent⟩ := mem_lacking.mp hf
        exact .inr ⟨f, hf, hrequired, List.not_mem_nil, habsent⟩
      · obtain ⟨n, hn, hpos⟩ := List.sum_pos_iff_exists_pos_nat.mp (Nat.pos_of_ne_zero hgaps)
        obtain ⟨x, hx, rfl⟩ := List.mem_map.mp hn
        exact .inl ⟨x, hx, Nat.ne_of_gt hpos⟩
    obtain ⟨fault, hfault⟩ := membersOf_error (r := empty) hfits hlawful.nodup (hfirst hmentions honce) hincomplete
      (.all hbody) (hbody.length_lt '}' rest) rest q
    exact ⟨fault, by rw [hq]; exact bind_error hfault⟩

/-! ## Whole texts -/

section Documents
variable {r : Read α} {t before after : Text}

theorem parse_ok {a : α} (h : Reads r t a) (hbefore : Spaces before) (hafter : Spaces after) :
    parse r (before ++ (t ++ after)) = .ok a := by
  obtain ⟨q, hq⟩ := h ⟨1, 0⟩ hbefore hafter.stops
  obtain ⟨q', hq'⟩ := token_end hafter q
  have hdocument : (document r).run (.start (before ++ (t ++ after))) = .ok (a, ⟨[], q'⟩) :=
    (bind_ok hq).trans (bind_ok hq')
  rw [parse, hdocument]

theorem parse_error (h : Refuses r t) (hbefore : Spaces before) (hafter : Spaces after) :
    ∃ f, parse r (before ++ (t ++ after)) = .error f := by
  obtain ⟨f, hf⟩ := h ⟨1, 0⟩ hbefore hafter.stops
  have hdocument : (document r).run (.start (before ++ (t ++ after))) = .error f := bind_error hf
  exact ⟨f, by rw [parse, hdocument]⟩

end Documents
end Traceback.Json
