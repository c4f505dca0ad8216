import Traceback.Proofs.Store.Codec
import Traceback.Proofs.Text.Pieces
import Traceback.Store.Record

/-! # Records are read back

* `Report.Addressable`: that the texts and lists of a report have sizes of 64 bits, as all in memory have.
* `Groups.ofPairs_pairs`: groups come back in their order.
* `Codec.linked_delimits`: an error comes back with all its links, whatever they are linked to.
* `Record.decode_encode_append`: so does a report from its record, whatever follows the record.
-/

namespace Traceback
set_option autoImplicit false

open Codec (countable)

/-! ## Sizes -/

def Text.Addressable (t : Text) : Prop := countable (Utf8.encode t).length

instance (t : Text) : Decidable t.Addressable := inferInstanceAs (Decidable (countable _))

def Category.Addressable (c : Category) : Prop :=
  c.name.Addressable ∧ countable c.bases.length ∧ ∀ t ∈ c.bases, Text.Addressable t

instance (c : Category) : Decidable c.Addressable := inferInstanceAs (Decidable (_ ∧ _))

def Groups.Addressable (g : Groups) : Prop :=
  countable g.pairs.length ∧ ∀ p ∈ g.pairs, Text.Addressable p.1 ∧ Text.Addressable p.2

instance (g : Groups) : Decidable g.Addressable := inferInstanceAs (Decidable (_ ∧ _))

def Frame.Addressable (f : Frame) : Prop :=
  f.file.Addressable ∧ f.scope.Addressable ∧ ∀ t ∈ f.source, Text.Addressable t

instance (f : Frame) : Decidable f.Addressable := inferInstanceAs (Decidable (_ ∧ _))

def Restated.Addressable (r : Restated) : Prop :=
  r.category.Addressable ∧ r.received.Addressable ∧ (∀ t ∈ r.rule, Text.Addressable t) ∧ r.groups.Addressable ∧
    r.message.Addressable ∧ countable r.frames.length ∧ ∀ f ∈ r.frames, f.Addressable

instance (r : Restated) : Decidable r.Addressable := inferInstanceAs (Decidable (_ ∧ _))

/-- `p` holds of the error at the end of the link and of all errors behind it, shown or not. -/
def Link.Forall {α : Type} (p : α → Prop) : Link α → Prop
  | absent => True
  | back error _ cause context => p error ∧ cause.Forall p ∧ context.Forall p

instance Link.decidableForall {α : Type} (p : α → Prop) [DecidablePred p] : ∀ k : Link α, Decidable (k.Forall p)
  | absent => inferInstanceAs (Decidable True)
  | back error _ cause context =>
    have := decidableForall p cause
    have := decidableForall p context
    inferInstanceAs (Decidable (p error ∧ cause.Forall p ∧ context.Forall p))

def Linked.Forall {α : Type} (p : α → Prop) (l : Linked α) : Prop := l.link.Forall p

instance Linked.decidableForall {α : Type} (p : α → Prop) [DecidablePred p] (l : Linked α) :
    Decidable (l.Forall p) :=
  inferInstanceAs (Decidable (l.link.Forall p))

/-- Sizes of texts and lists are counted in words of 64 bits. -/
def Report.Addressable (r : Report) : Prop := r.Forall Restated.Addressable

instance (r : Report) : Decidable r.Addressable := inferInstanceAs (Decidable (r.Forall _))

/-! ## Groups -/

namespace Groups

theorem put_of_notMem (name text : Text) (l : List (Text × Text)) (h : name ∉ l.map (·.1)) :
    put name text l = l ++ [(name, text)] := by
  induction l with
  | nil => rfl
  | cons pair l ih =>
    rw [List.map_cons, List.mem_cons, not_or] at h
    rw [put, if_neg (Ne.symm h.1), ih h.2, List.cons_append]

theorem foldl_insert_pairs (l : List (Text × Text)) (g : Groups) (h : ((g.pairs ++ l).map (·.1)).Nodup) :
    (l.foldl (fun g pair => g.insert pair.1 pair.2) g).pairs = g.pairs ++ l := by
  induction l generalizing g with
  | nil => rw [List.foldl_nil, List.append_nil]
  | cons pair l ih =>
    have hnew : pair.1 ∉ g.pairs.map (·.1) := by
      rw [List.map_append, List.nodup_append] at h
      intro hmem
      exact h.2.2 _ hmem _ (List.mem_cons_self ..) rfl
    have hinsert : (g.insert pair.1 pair.2).pairs = g.pairs ++ [pair] := put_of_notMem _ _ _ hnew
    have e : g.pairs ++ [pair] ++ l = g.pairs ++ pair :: l := List.append_assoc ..
    rw [List.foldl_cons, ih, hinsert, e]
    rw [hinsert, e]
    exact h

theorem ofPairs_pairs (g : Groups) : ofPairs g.pairs = g := by
  have h : (ofPairs g.pairs).pairs = g.pairs := foldl_insert_pairs g.pairs {} g.nodup
  generalize ofPairs g.pairs = g' at h
  cases g
  cases g'
  cases h
  rfl

end Groups

/-! ## Parts of a report -/

namespace Codec

theorem category_delimits : category.Delimits Category.Addressable := by
  have h := iso_delimits (pair_delimits text_delimits (list_delimits text_delimits)) (fun p => (⟨p.1, p.2⟩ : Category))
    (fun c => (c.name, c.bases)) (fun _ => rfl)
  exact h

theorem groups_delimits : groups.Delimits Groups.Addressable := by
  have h := iso_delimits (list_delimits (pair_delimits text_delimits text_delimits)) Groups.ofPairs Groups.pairs
    Groups.ofPairs_pairs
  exact h

theorem frame_delimits : frame.Delimits Frame.Addressable := by
  intro f ⟨hfile, hscope, hsource⟩ rest
  have hnumber := option_delimits number_delimits
  have h := pair_delimits text_delimits (pair_delimits number_delimits (pair_delimits hnumber (pair_delimits hnumber
    (pair_delimits hnumber (pair_delimits text_delimits (option_delimits text_delimits))))))
  have hiso : frame.Delimits _ := iso_delimits h _ _ fun _ => rfl
  exact hiso f ⟨hfile, trivial, fun _ _ => trivial, fun _ _ => trivial, fun _ _ => trivial, hscope, hsource⟩ rest

theorem restated_delimits : restated.Delimits Restated.Addressable := by
  have h := pair_delimits category_delimits (pair_delimits text_delimits (pair_delimits (option_delimits text_delimits)
    (pair_delimits groups_delimits (pair_delimits text_delimits (list_delimits frame_delimits)))))
  exact iso_delimits h _ _ fun _ => rfl

/-! ## Links -/

section Links
variable {α : Type} {c : Codec α} {fits : α → Prop}

theorem readLink_false (depth : Nat) (rest : Bytes) :
    readLink c (depth + 1) ((tag .badOption).write false ++ rest) = .ok (.absent, rest) := by
  rw [readLink, read_tag]

theorem readLink_true (depth : Nat) (bytes rest : Bytes) (l : Linked α)
    (h : readLinked c depth bytes = .ok (l, rest)) :
    readLink c (depth + 1) ((tag .badOption).write true ++ bytes) = .ok (l.link, rest) := by
  rw [readLink, read_tag]
  dsimp only
  rw [h]

/-- Two levels of reading are spent on each error, which is no fewer bytes than its tag. -/
theorem readLinked_of_links (hc : c.Delimits fits) (l : Linked α) (hl : fits l.error) (depth : Nat)
    (hcause : ∀ rest, readLink c depth (writeLink c l.cause ++ rest) = .ok (l.cause, rest))
    (hcontext : ∀ rest, readLink c depth (writeLink c l.context ++ rest) = .ok (l.context, rest)) (rest : Bytes) :
    readLinked c (depth + 1) ((linked c).write l ++ rest) = .ok (l, rest) := by
  simp only [linked, List.append_assoc]
  rw [readLinked, hc _ hl]
  dsimp only
  rw [hcause]
  dsimp only
  rw [hcontext]
  dsimp only
  rw [bool_delimits _ trivial]

theorem length_tag_write (fault : CodecFault) (b : Bool) : ((tag fault).write b).length = 1 := rfl

theorem readLink_writeLink (hc : c.Delimits fits) (k : Link α) (hk : k.Forall fits) (depth : Nat)
    (hdepth : 2 * (writeLink c k).length ≤ depth) (rest : Bytes) :
    readLink c depth (writeLink c k ++ rest) = .ok (k, rest) := by
  induction k generalizing depth rest with
  | absent =>
    rw [writeLink, length_tag_write] at hdepth
    obtain ⟨depth, rfl⟩ : ∃ d, depth = d + 1 := ⟨depth - 1, by omega⟩
    exact readLink_false depth rest
  | back error hidesContext cause context ihCause ihContext =>
    rw [writeLink, List.length_append, length_tag_write] at hdepth
    simp only [List.length_append] at hdepth
    obtain ⟨depth, rfl⟩ : ∃ d, depth = d + 2 := ⟨depth - 2, by omega⟩
    obtain ⟨herror, hcause, hcontext⟩ := hk
    have h := readLinked_of_links hc ⟨error, hidesContext, cause, context⟩ herror depth
      (fun rest => ihCause hcause depth (by omega) rest) (fun rest => ihContext hcontext depth (by omega) rest) rest
    rw [writeLink, List.append_assoc]
    exact readLink_true _ _ _ _ h

theorem linked_delimits (hc : c.Delimits fits) : (linked c).Delimits (Linked.Forall fits) := by
  intro l ⟨herror, hcause, hcontext⟩ rest
  have hlength : (writeLink c l.cause).length + (writeLink c l.context).length ≤
      ((linked c).write l ++ rest).length := by
    simp only [linked, List.length_append]
    omega
  exact readLinked_of_links hc l herror _ (fun rest => readLink_writeLink hc _ hcause _ (by omega) rest)
    (fun rest => readLink_writeLink hc _ hcontext _ (by omega) rest) rest

end Links

theorem report_delimits : report.Delimits Report.Addressable := linked_delimits restated_delimits

end Codec

/-! ## Records -/

namespace Record

theorem decode_of_read {bytes rest : Bytes} {r : Report} (h : Codec.report.read bytes = .ok (r, rest)) :
    decode (mark ++ bytes) = .ok r := by
  rw [decode, Text.dropPrefix?_append]
  dsimp only
  rw [h]

theorem decode_encode (r : Report) (hr : r.Addressable) : decode (encode r) = .ok r := by
  have h := Codec.report_delimits r hr []
  rw [List.append_nil] at h
  exact decode_of_read h

/-- **A report is read back from its record**, and what follows the record does not matter. -/
theorem decode_encode_append (r : Report) (hr : r.Addressable) (rest : Bytes) :
    decode (encode r ++ rest) = .ok r := by
  rw [encode, List.append_assoc]
  exact decode_of_read (Codec.report_delimits r hr rest)

/-- A report with a cause and a context, groups out of order and the largest of all numbers. -/
def linkedSample : Report where
  error :=
    { category := ⟨"KeyError".toList, ["LookupError".toList, "Exception".toList]⟩
      received := "'é'".toList
      rule := some "key".toList
      groups := .ofPairs [("name".toList, "é".toList), ("hint".toList, [])]
      message := "no key named é".toList
      frames := [
        { file := "/srv/app.py".toList, line := 300, endLine := some 18446744073709551615, column := some 0,
          scope := "main".toList, source := some "d['é']".toList }] }
  cause := .back ⟨⟨"OSError".toList, []⟩, [], none, .ofPairs [], [], []⟩ true .absent .absent
  context := .back ⟨⟨"ValueError".toList, []⟩, [], none, .ofPairs [], "bad".toList, []⟩ false .absent .absent

theorem decode_encode_append_linkedSample :
    linkedSample.Addressable ∧ decode (encode linkedSample ++ [0x00, 0xFF]) = .ok linkedSample :=
  ⟨by decide, decode_encode_append linkedSample (by decide) [0x00, 0xFF]⟩

end Record
end Traceback
