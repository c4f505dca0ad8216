import Traceback.FileTree

/-! # Files hold what was written last

* `FileTree.entry?_put_self`, `FileTree.entry?_put_of_ne`: a change at one place is seen there only.
* `FileTree.Roomy`: places where a file may be written.
* `FileTree.heldBy_of_walkFrom`: a walk reaches what is in the tree.
* `FileTree.walkFrom_put`: a walk that led to such a place leads to the file that was put there.
* `FileTree.read_of_write`: what was written is read.
-/

namespace Traceback.FileTree
set_option autoImplicit false

variable {t t' : FileTree}

/-! ## Entries -/

theorem lookup_filter_ne {α β : Type} [BEq α] [LawfulBEq α] (l : List (α × β)) {a b : α} (h : b ≠ a) :
    (l.filter fun other => other.1 != a).lookup b = l.lookup b := by
  induction l with
  | nil => rfl
  | cons other l ih =>
    obtain ⟨c, d⟩ := other
    by_cases hc : c = a
    · have hb : (b == c) = false := by
        rw [hc]
        exact beq_false_of_ne h
      rw [List.filter_cons_of_neg (by simp [hc]), ih, List.lookup_cons, hb]
    · rw [List.filter_cons_of_pos (by simp [hc]), List.lookup_cons, List.lookup_cons, ih]

theorem entry?_nil (t : FileTree) : t.entry? [] = some .directory := rfl

theorem entry?_put_self {p : Place} (hp : p ≠ []) (e : Entry) : entry? (t.put p e) p = some e := by
  unfold entry?
  rw [if_neg (by simpa using hp), put, List.lookup_cons_self]

theorem entry?_put_of_ne {p q : Place} (h : q ≠ p) (e : Entry) : entry? (t.put p e) q = t.entry? q := by
  have hq : (q == p) = false := beq_false_of_ne h
  unfold entry?
  rw [put, List.lookup_cons, hq, lookup_filter_ne _ h]

/-! ## Room for a file -/

/-- Nothing lies there but perhaps a file. -/
def Roomy (t : FileTree) (p : Place) : Prop := t.entry? p = none ∨ ∃ content, t.entry? p = some (.file content)

/-- The place of a file that a write to what was reached would change or make. -/
def Reached.room? : Reached → Option Place
  | .free place => some place
  | .entry place (.file _) => some place
  | .entry _ _ => none
  | .gap _ => none

/-- The place of what was reached, or at which the way ends or breaks off. -/
def Reached.place : Reached → Place
  | .entry place _ | .free place | .gap place => place

theorem Reached.place_of_room? {r : Reached} {p : Place} (h : r.room? = some p) : p = r.place := by
  cases r with
  | free place => exact (Option.some.inj h).symm
  | gap place => cases h
  | entry place e =>
    cases e with
    | file content => exact (Option.some.inj h).symm
    | directory => cases h
    | link target => cases h

theorem Roomy.ne_nil {p : Place} (h : t.Roomy p) : p ≠ [] := by
  rintro rfl
  rw [Roomy, entry?_nil] at h
  rcases h with h | ⟨content, h⟩
  · cases h
  · cases h

/-- A directory or a link keeps its place when a file is put where there was room. -/
theorem Roomy.entry?_put {p q : Place} {e found : Entry} (h : t.Roomy p) (hq : t.entry? q = some found)
    (hfound : ∀ content, found ≠ .file content) : entry? (t.put p e) q = some found := by
  rw [entry?_put_of_ne _ e, hq]
  rintro rfl
  rcases h with h | ⟨content, h⟩
  · rw [hq] at h
    cases h
  · rw [hq] at h
    cases h
    exact hfound content rfl

/-! ## Walks -/

section Walks
variable {follow : Bool} {links : Nat} {place p : Place} {e : Entry} {todo : List Step} {r : Reached}

theorem walkFrom_nil : t.walkFrom follow links place e [] = .ok (.entry place e) := by
  unfold walkFrom
  rfl

/-- A file is only ever the end of a walk. -/
theorem todo_of_walkFrom_file {content : Bytes} (h : t.walkFrom follow links place (.file content) todo = .ok r) :
    todo = [] := by
  cases todo with
  | nil => rfl
  | cons step rest =>
    unfold walkFrom at h
    cases h

/-- What was reached is in the tree, and nothing lies where there was nothing to reach; the directory where a walk
begins need not be in the tree. -/
def Reached.HeldBy (t : FileTree) : Reached → Prop
  | .free p | .gap p => t.entry? p = none
  | .entry p e => e = .directory ∨ t.entry? p = some e

theorem heldBy_of_walkFrom (h : t.walkFrom follow links place e todo = .ok r)
    (he : e = .directory ∨ t.entry? place = some e) : r.HeldBy t := by
  fun_induction walkFrom t follow links place e todo with
  | case1 links place e =>
    cases h
    exact he
  | case6 links place e rest _ name _ hnone =>
    split at h
    · cases h
      exact hnone
    · cases h
      exact hnone
  | case7 links place e rest _ name _ target hlink _ =>
    cases h
    exact Or.inr hlink
  | case3 links place e rest hdir ih => exact ih h he
  | case4 links place e rest hdir ih => exact ih h (Or.inl rfl)
  | case9 place e rest _ name _ target _ _ links ih => exact ih h (Or.inl rfl)
  | case10 links place e rest _ name _ found _ hfound ih => exact ih h (Or.inr hfound)
  | case2 => cases h
  | case5 => cases h
  | case8 => cases h

theorem Reached.HeldBy.roomy (h : r.HeldBy t) (hroom : r.room? = some p) : t.Roomy p := by
  cases r with
  | free place =>
    cases hroom
    exact Or.inl h
  | gap place => cases hroom
  | entry place e =>
    cases e with
    | file content =>
      cases hroom
      exact Or.inr ⟨content, h.resolve_left (by simp)⟩
    | directory => cases hroom
    | link target => cases hroom

theorem walkFrom_enter {name : Text} {rest : List Step} {found : Entry} (hname : ¬ (Utf8.encode name).length > 255)
    (hfound : t.entry? (place ++ [name]) = some found) (hlink : ∀ target, found ≠ .link target) :
    t.walkFrom follow links place .directory (.enter name :: rest) =
      t.walkFrom follow links (place ++ [name]) found rest := by
  rw [walkFrom.eq_def]
  dsimp only
  rw [if_neg (by decide), if_neg hname, hfound]
  cases found with
  | directory => rfl
  | file content => rfl
  | link target => exact absurd rfl (hlink target)

theorem walkFrom_link {name target : Text} {rest : List Step} (hname : ¬ (Utf8.encode name).length > 255)
    (hfound : t.entry? (place ++ [name]) = some (.link target)) (hfollow : ¬ (rest.isEmpty && !follow) = true) :
    t.walkFrom follow (links + 1) place .directory (.enter name :: rest) =
      t.walkFrom follow links (if Path.isAbsolute target then [] else place) .directory (steps target ++ rest) := by
  rw [walkFrom.eq_def]
  dsimp only
  rw [if_neg (by decide), if_neg hname, hfound]
  dsimp only
  rw [if_neg hfollow]

/-- What is put at the end of a walk does not lie on the way there. -/
theorem walkFrom_put {content : Bytes} (hp : t.Roomy p)
    (h : t.walkFrom follow links place .directory todo = .ok r) (hroom : r.room? = some p) :
    (t.put p (.file content)).walkFrom follow links place .directory todo = .ok (.entry p (.file content)) := by
  generalize he : Entry.directory = e at h
  fun_induction walkFrom t follow links place e todo with
  | case1 links place e =>
    subst he
    cases h
    cases hroom
  | case3 links place e rest hdir ih =>
    subst he
    unfold walkFrom
    exact ih rfl h
  | case4 links place e rest hdir ih =>
    subst he
    unfold walkFrom
    exact ih rfl h
  | case6 links place e rest hdir name hname hnone =>
    subst he
    split at h
    next hrest =>
      cases h
      cases hroom
      obtain rfl := List.isEmpty_iff.mp hrest
      rw [walkFrom_enter hname (entry?_put_self hp.ne_nil _) (by simp), walkFrom_nil]
    next =>
      cases h
      cases hroom
  | case7 links place e rest hdir name hname target hlink hrest =>
    cases h
    cases hroom
  | case9 place e rest hdir name hname target hlink hrest links ih =>
    subst he
    rw [walkFrom_link hname (hp.entry?_put hlink (by simp)) hrest]
    exact ih rfl h
  | case10 links place e rest hdir name hname found hnolink hfound ih =>
    subst he
    cases found with
    | directory =>
      rw [walkFrom_enter hname (hp.entry?_put hfound (by simp)) (by simp)]
      exact ih rfl h
    | file old =>
      obtain rfl := todo_of_walkFrom_file h
      rw [walkFrom_nil] at h
      cases h
      cases hroom
      rw [walkFrom_enter hname (entry?_put_self hp.ne_nil _) (by simp), walkFrom_nil]
    | link target => exact absurd rfl (hnolink target)
  | case2 => cases h
  | case5 => cases h
  | case8 => cases h

end Walks

section Paths
variable {follow : Bool} {path : Text} {r : Reached}

theorem walk_eq_ok_iff : t.walk follow path = .ok r ↔
    (¬ path.contains '\x00' = true ∧ path ≠ [] ∧ ¬ (Utf8.encode path).length ≥ 4096) ∧
      t.walkFrom follow 40 (if Path.isAbsolute path then [] else t.directory) .directory (steps path) = .ok r := by
  unfold walk
  by_cases hnul : path.contains '\x00' = true
  · rw [if_pos hnul]
    exact ⟨fun h => (by cases h), fun h => absurd hnul h.1.1⟩
  · by_cases hempty : path = []
    · rw [if_neg hnul, if_pos hempty]
      exact ⟨fun h => (by cases h), fun h => absurd hempty h.1.2.1⟩
    · by_cases hlong : (Utf8.encode path).length ≥ 4096
      · rw [if_neg hnul, if_neg hempty, if_pos hlong]
        exact ⟨fun h => (by cases h), fun h => absurd hlong h.1.2.2⟩
      · rw [if_neg hnul, if_neg hempty, if_neg hlong]
        exact ⟨fun h => ⟨⟨hnul, hempty, hlong⟩, h⟩, fun h => h.2⟩

theorem heldBy_of_walk (h : t.walk follow path = .ok r) : r.HeldBy t :=
  heldBy_of_walkFrom (walk_eq_ok_iff.mp h).2 (Or.inl rfl)

theorem walk_put {content : Bytes} {p : Place} (h : t.walk follow path = .ok r) (hroom : r.room? = some p) :
    (t.put p (.file content)).walk follow path = .ok (.entry p (.file content)) := by
  obtain ⟨hpath, hwalk⟩ := walk_eq_ok_iff.mp h
  exact walk_eq_ok_iff.mpr ⟨hpath, walkFrom_put ((heldBy_of_walk h).roomy hroom) hwalk hroom⟩

end Paths

/-! ## Writing and reading -/

theorem eq_put_of_write {path : Text} {content : Bytes} (h : t.write path content = .ok t') :
    ∃ r p, t.walk true path = .ok r ∧ r.room? = some p ∧ t' = t.put p (.file content) := by
  unfold write at h
  split at h
  next => cases h
  next => cases h
  next p hwalk =>
    cases h
    exact ⟨_, p, hwalk, rfl, rfl⟩
  next p old hwalk =>
    cases h
    exact ⟨_, p, hwalk, rfl, rfl⟩
  next => cases h

/-- A file holds what was written to it last. -/
theorem read_of_write {path : Text} {content : Bytes} (h : t.write path content = .ok t') :
    t'.read path = .ok content := by
  obtain ⟨r, p, hwalk, hroom, rfl⟩ := eq_put_of_write h
  rw [read, walk_put hwalk hroom]

end Traceback.FileTree
