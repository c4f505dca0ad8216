import Traceback.Proofs.FileTree

/-! # What a change leaves alone

A path leads where it led before, unless it led to what was changed or the change has filled the place at which it
broke off.

* `FileTree.Keeps`: that a tree has all that another one had, but for a changed file.
* `FileTree.walkFrom_of_keeps`, `FileTree.read_of_keeps`: walks and reading in such a tree.
* `FileTree.keeps_makeWay`, `FileTree.keeps_of_write`: what making directories and writing keep.
-/

namespace Traceback.FileTree
set_option autoImplicit false

variable {t t' t'' : FileTree} {changed : Option Place}

/-! ## Kept entries -/

/-- All that lies in `t` lies in `t'` too, except that the file at the changed place may be new or another. -/
structure Keeps (changed : Option Place) (t t' : FileTree) : Prop where
  directory : t'.directory = t.directory
  entry : ∀ p e, t.entry? p = some e → changed ≠ some p → t'.entry? p = some e
  file : ∀ p, changed = some p → t.Roomy p ∧ ∃ content, t'.entry? p = some (.file content)

namespace Keeps

theorem refl (t : FileTree) : Keeps none t t where
  directory := rfl
  entry p e h _ := h
  file p h := by cases h

theorem trans (h : Keeps none t t') (h' : Keeps changed t' t'') : Keeps changed t t'' where
  directory := h'.directory.trans h.directory
  entry p e he hp := h'.entry p e (h.entry p e he (Option.some_ne_none p).symm) hp
  file p hp := by
    obtain ⟨hroom, content, hcontent⟩ := h'.file p hp
    refine ⟨?_, content, hcontent⟩
    cases hbefore : t.entry? p with
    | none => exact Or.inl hbefore
    | some e =>
      -- What lay there before lies there after the first change, where there was room.
      have hafter : t'.entry? p = some e := h.entry p e hbefore (Option.some_ne_none p).symm
      rcases hroom with hroom | ⟨content, hroom⟩
      · rw [hroom] at hafter
        cases hafter
      · rw [hroom] at hafter
        cases hafter
        exact Or.inr ⟨content, hbefore⟩

theorem put_directory {p : Place} (hp : t.entry? p = none) : Keeps none t (t.put p .directory) where
  directory := rfl
  entry q e he _ := by
    rw [entry?_put_of_ne _ _, he]
    rintro rfl
    rw [hp] at he
    cases he
  file q hq := by cases hq

theorem put_file {p : Place} (hp : t.Roomy p) (content : Bytes) : Keeps (some p) t (t.put p (.file content)) where
  directory := rfl
  entry q e he hq := by rw [entry?_put_of_ne (fun h => hq (congrArg some h.symm)) _, he]
  file q hq := by
    cases hq
    exact ⟨hp, content, entry?_put_self hp.ne_nil _⟩

/-- A directory or a link stays wherever it is. -/
theorem entry_of_not_file (h : Keeps changed t t') {p : Place} {e : Entry} (he : t.entry? p = some e)
    (hfile : ∀ content, e ≠ .file content) : t'.entry? p = some e := by
  refine h.entry p e he fun hp => ?_
  rcases (h.file p hp).1 with hroom | ⟨content, hroom⟩
  · rw [hroom] at he
    cases he
  · rw [hroom] at he
    cases he
    exact hfile content rfl

end Keeps

/-! ## Walks -/

/-- What was reached is not what was changed, and no other thing has taken its place. -/
def Reached.Spared (changed : Option Place) (t' : FileTree) : Reached → Prop
  | .entry p _ => changed ≠ some p
  | .free p | .gap p => t'.entry? p = none

section Walks
variable {follow : Bool} {links : Nat} {place : Place} {e : Entry} {todo : List Step}

theorem walkFrom_file (content : Bytes) (step : Step) (rest : List Step) :
    t.walkFrom follow links place (.file content) (step :: rest) = .error .notDirectory := by
  unfold walkFrom
  exact if_pos (by simp)

theorem walkFrom_of_keeps (h : Keeps changed t t')
    (hspared : ∀ r, t.walkFrom follow links place e todo = .ok r → r.Spared changed t') :
    t'.walkFrom follow links place e todo = t.walkFrom follow links place e todo := by
  fun_induction walkFrom t follow links place e todo with
  | case1 links place e => exact walkFrom_nil
  | case2 links place e step rest hdir =>
    unfold walkFrom
    rw [if_pos hdir]
  | case3 links place e rest hdir ih =>
    rw [walkFrom.eq_def]
    dsimp only
    rw [if_neg hdir]
    exact ih hspared
  | case4 links place e rest hdir ih =>
    rw [walkFrom.eq_def]
    dsimp only
    rw [if_neg hdir]
    exact ih hspared
  | case5 links place e rest hdir name hname =>
    unfold walkFrom
    dsimp only
    rw [if_neg hdir, if_pos hname]
  | case6 links place e rest hdir name hname hnone =>
    have hfree : t'.entry? (place ++ [name]) = none := by
      have hreached := hspared _ rfl
      split at hreached
      · exact hreached
      · exact hreached
    unfold walkFrom
    dsimp only
    rw [if_neg hdir, if_neg hname, hfree]
  | case7 links place e rest hdir name hname target hlink hend =>
    unfold walkFrom
    dsimp only
    rw [if_neg hdir, if_neg hname, h.entry_of_not_file hlink (by simp)]
    exact if_pos hend
  | case8 place e rest hdir name hname target hlink hend =>
    unfold walkFrom
    dsimp only
    rw [if_neg hdir, if_neg hname, h.entry_of_not_file hlink (by simp)]
    exact if_neg hend
  | case9 place e rest hdir name hname target hlink hend links ih =>
    obtain rfl : e = .directory := by simpa using hdir
    rw [walkFrom_link hname (h.entry_of_not_file hlink (by simp)) hend]
    exact ih hspared
  | case10 links place e rest hdir name hname found hnolink hfound ih =>
    obtain rfl : e = .directory := by simpa using hdir
    by_cases hchanged : changed = some (place ++ [name])
    · -- The changed file is not what is reached, so the path goes on after it, in vain as before.
      obtain ⟨hroom, content, hcontent⟩ := h.file _ hchanged
      obtain ⟨old, rfl⟩ : ∃ old, found = .file old := by
        rcases hroom with hroom | ⟨old, hroom⟩
        · rw [hroom] at hfound
          cases hfound
        · rw [hroom] at hfound
          cases hfound
          exact ⟨old, rfl⟩
      rw [walkFrom_enter hname hcontent (by simp)]
      cases rest with
      | nil =>
        rw [walkFrom_nil] at hspared
        exact absurd hchanged (hspared _ rfl)
      | cons step rest => rw [walkFrom_file, walkFrom_file]
    · rw [walkFrom_enter hname (h.entry _ _ hfound hchanged) hnolink]
      exact ih hspared

end Walks

theorem walk_of_keeps {follow : Bool} {path : Text} (h : Keeps changed t t')
    (hspared : ∀ r, t.walk follow path = .ok r → r.Spared changed t') : t'.walk follow path = t.walk follow path := by
  unfold walk
  by_cases hnul : path.contains '\x00' = true
  · rw [if_pos hnul, if_pos hnul]
  · by_cases hempty : path = []
    · rw [if_neg hnul, if_neg hnul, if_pos hempty, if_pos hempty]
    · by_cases hlong : (Utf8.encode path).length ≥ 4096
      · rw [if_neg hnul, if_neg hnul, if_neg hempty, if_neg hempty, if_pos hlong, if_pos hlong]
      · rw [if_neg hnul, if_neg hnul, if_neg hempty, if_neg hempty, if_neg hlong, if_neg hlong, h.directory]
        exact walkFrom_of_keeps h fun r hr => hspared r (walk_eq_ok_iff.mpr ⟨⟨hnul, hempty, hlong⟩, hr⟩)

/-- The place without an entry at which a path ends or breaks off. -/
def missing? (t : FileTree) (path : Text) : Option Place :=
  match t.walk true path with
  | .ok (.free p) | .ok (.gap p) => some p
  | _ => none

theorem read_of_walk {path : Text} (h : t'.walk true path = t.walk true path) : t'.read path = t.read path := by
  rw [read, read, h]

/-- A file is read as before unless it is the changed one, or a path that led nowhere leads on by the change. -/
theorem read_of_keeps {path : Text} (h : Keeps changed t t') (hmissing : ∀ p ∈ t.missing? path, t'.entry? p = none)
    (hfile : ∀ p ∈ changed, t.canonical? path ≠ some (textOf p)) : t'.read path = t.read path := by
  have hwalk : t'.walk true path = t.walk true path := by
    refine walk_of_keeps h fun r hr => ?_
    cases r with
    | free p => exact hmissing p (by rw [missing?, hr]; rfl)
    | gap p => exact hmissing p (by rw [missing?, hr]; rfl)
    | entry p e => exact fun hchanged => hfile p hchanged (by rw [canonical?, hr])
  exact read_of_walk hwalk

/-! ## Making directories -/

theorem keeps_makeDirectory {path : Text} (h : t.makeDirectory path = .ok t') : Keeps none t t' := by
  unfold makeDirectory at h
  split at h
  next => cases h
  next => cases h
  next p hwalk =>
    cases h
    exact .put_directory (heldBy_of_walk hwalk)
  next => cases h

theorem keeps_makeAll (components : List Path.Component) : Keeps none t (t.makeAll components).1 := by
  fun_induction makeAll t components with
  | case1 => exact .refl t
  | case2 => exact .refl t
  | case3 c above _ path made hmade => exact keeps_makeDirectory hmade
  | case4 c above _ path _ made f hway ih =>
    rw [hway] at ih
    exact ih
  | case5 c above _ path _ way hway made hmade ih =>
    rw [hway] at ih
    exact ih.trans (keeps_makeDirectory hmade)
  | case6 c above _ path _ way hway f _ ih =>
    rw [hway] at ih
    exact ih
  | case7 c above _ path f _ _ => exact .refl t

theorem keeps_makeWay (t : FileTree) (path : Text) : Keeps none t (t.makeWay path).1 := keeps_makeAll _

/-! ## Writing -/

/-- The file that a write changes is what the path leads to afterwards. -/
theorem keeps_of_write {path : Text} {content : Bytes} (h : t.write path content = .ok t') :
    ∃ p, Keeps (some p) t t' ∧ t'.canonical? path = some (textOf p) := by
  obtain ⟨r, p, hwalk, hroom, rfl⟩ := eq_put_of_write h
  refine ⟨p, .put_file ((heldBy_of_walk hwalk).roomy hroom) content, ?_⟩
  rw [canonical?, walk_put hwalk hroom]

end Traceback.FileTree
