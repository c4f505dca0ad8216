import Traceback.Disk
import Traceback.Proofs.Source

/-! # What a cache remembers

Files change, and lines of them are looked at through a cache, which is cleared now and then. A look shows the file
as it was at the first look at it since the cache was cleared, whatever has happened to it since.

* `LineCache.Event`, `LineCache.World.run`: what happens, one thing after the other.
* `LineCache.World.snapshot?`: the files as they were at the first look at one of them.
* `LineCache.World.lookup_run`: the cache remembers a file as it was in that moment, and no other.
* `LineCache.World.line_run`: so all looks at a file are answered from one snapshot of it.
-/

namespace Traceback
set_option autoImplicit false

/-! ## A single file in memory -/

/-- Line `n` of the file that now lies there, as it were held in memory; none when the file cannot be read. -/
def FileTree.lineInMemory (t : FileTree) (file : Text) (n : Nat) : Option Bytes :=
  match t.read file with
  | .ok content => (Sources.insert {} file content).line file n
  | .error _ => none

theorem FileTree.lines?_bind (t : FileTree) (file : Text) (n : Nat) :
    (t.disk.lines? file).bind (fun lines => lineAt lines n) = t.lineInMemory file n := by
  unfold lineInMemory Disk.lines?
  change (match t.read file with | .ok content => some (splitLines content) | .error _ => none).bind _ = _
  cases t.read file with
  | ok content => exact (Sources.line_insert {} file content n).symm
  | error f => rfl

/-! ## Looks -/

namespace LineCache

variable {c : LineCache} {d : Disk} {file other : Text} {n : Nat}

theorem worthLooking_iff : Disk.worthLooking file n = true ↔ file ≠ [] ∧ n ≠ 0 := by
  simp [Disk.worthLooking]

theorem worthLooking_eq_false_iff : Disk.worthLooking file n = false ↔ file = [] ∨ n = 0 := by
  rw [← Bool.not_eq_true, worthLooking_iff, Decidable.not_and_iff_not_or_not, Decidable.not_not, Decidable.not_not]

theorem line_of_not_worth (h : Disk.worthLooking file n = false) : c.line d file n = none := by simp [line, h]

theorem look_of_not_worth (h : Disk.worthLooking file n = false) : c.look d file n = c := by simp [look, h]

theorem line_of_lookup {remembered : Option (List Bytes)} (hworth : Disk.worthLooking file n = true)
    (h : c.files.lookup file = some remembered) : c.line d file n = remembered.bind fun lines => lineAt lines n := by
  rw [line, if_pos hworth, lines?, h]

theorem line_of_lookup_none (hworth : Disk.worthLooking file n = true) (h : c.files.lookup file = none) :
    c.line d file n = (d.lines? file).bind fun lines => lineAt lines n := by
  rw [line, if_pos hworth, lines?, h]

theorem lookup_look_of_some {remembered : Option (List Bytes)} (h : c.files.lookup file = some remembered) :
    (c.look d other n).files.lookup file = some remembered := by
  rw [look]
  split
  next hnew =>
    have hne : file ≠ other := by
      rintro rfl
      simp [h] at hnew
    rw [List.lookup_cons, beq_false_of_ne hne, h]
  next => exact h

/-- A look at a file that is not remembered makes it so, unless there is nothing to look for. -/
theorem lookup_look_of_none (h : c.files.lookup file = none) : (c.look d other n).files.lookup file =
    if other = file ∧ Disk.worthLooking file n = true then some (d.lines? file) else none := by
  by_cases hother : other = file
  · subst hother
    cases hworth : Disk.worthLooking other n with
    | false => simp [look_of_not_worth hworth, h]
    | true => simp [look, hworth, h]
  · rw [look]
    split
    next => rw [List.lookup_cons, beq_false_of_ne (Ne.symm hother), h, if_neg (fun hand => hother hand.1)]
    next => rw [h, if_neg (fun hand => hother hand.1)]

/-! ## Events -/

/-- What happens to files and to the cache through which their lines are looked at. -/
inductive Event where
  | write (path : Text) (content : Bytes)
  | remove (path : Text)
  /-- The files change in any other way. -/
  | change (files : FileTree)
  | look (file : Text) (n : Nat)
  | clear

/-- Files, and a cache of their lines. -/
structure World where
  files : FileTree
  cache : LineCache := {}

namespace World

/-- A file that cannot be written or removed stays as it is. -/
def after (w : World) : Event → World
  | .write path content => { w with files := (w.files.write path content).toOption.getD w.files }
  | .remove path => { w with files := (w.files.remove path).toOption.getD w.files }
  | .change files => { w with files := files }
  | .look file n => { w with cache := w.cache.look w.files.disk file n }
  | .clear => { w with cache := {} }

/-- The world after these events, of which the latest comes first. -/
def run (w : World) : List Event → World
  | [] => w
  | e :: earlier => (w.run earlier).after e

/-- What a look at line `n` of a file shows. -/
def line (w : World) (file : Text) (n : Nat) : Option Bytes := w.cache.line w.files.disk file n

/-- The files as they were at the first look at `file` since the cache was cleared, if there was one. -/
def snapshot? (start : World) (file : Text) : List Event → Option FileTree
  | [] => none
  | .clear :: _ => none
  | .look other n :: earlier =>
    match snapshot? start file earlier with
    | some files => some files
    | none => if other = file ∧ file ≠ [] ∧ n ≠ 0 then some (start.run earlier).files else none
  | _ :: earlier => snapshot? start file earlier

/-! ## Runs -/

/-- What is remembered of a file is what the snapshot shows of it. -/
theorem lookup_run (files : FileTree) (events : List Event) (file : Text) :
    (run ⟨files, {}⟩ events).cache.files.lookup file =
      (snapshot? ⟨files, {}⟩ file events).map fun t => t.disk.lines? file := by
  -- On the events, latest first: only clearing and a look at this file touch what is remembered of it.
  induction events with
  | nil => rfl
  | cons e earlier ih =>
    cases e with
    | write path content => exact ih
    | remove path => exact ih
    | change files => exact ih
    | clear => rfl
    | look other n =>
      rw [snapshot?]
      cases hsnapshot : snapshot? ⟨files, {}⟩ file earlier with
      | some t =>
        rw [hsnapshot] at ih
        exact lookup_look_of_some ih
      | none =>
        rw [hsnapshot] at ih
        rw [run, after]
        dsimp only
        rw [lookup_look_of_none ih]
        simp only [worthLooking_iff]
        split <;> rfl

theorem line_run_of_worth (files : FileTree) (events : List Event) {file : Text} {n : Nat} (hfile : file ≠ [])
    (hn : n ≠ 0) : (run ⟨files, {}⟩ events).line file n =
      ((snapshot? ⟨files, {}⟩ file events).getD (run ⟨files, {}⟩ events).files).lineInMemory file n := by
  have hworth : Disk.worthLooking file n = true := worthLooking_iff.mpr ⟨hfile, hn⟩
  have hlookup := lookup_run files events file
  cases hsnapshot : snapshot? ⟨files, {}⟩ file events with
  | none =>
    rw [hsnapshot] at hlookup
    exact (line_of_lookup_none hworth hlookup).trans (FileTree.lines?_bind _ _ _)
  | some t =>
    rw [hsnapshot] at hlookup
    exact (line_of_lookup hworth hlookup).trans (FileTree.lines?_bind _ _ _)

theorem line_of_not_worth {w : World} {file : Text} {n : Nat} (h : file = [] ∨ n = 0) : w.line file n = none :=
  LineCache.line_of_not_worth (worthLooking_eq_false_iff.mpr h)

theorem after_look_of_not_worth {w : World} {file : Text} {n : Nat} (h : file = [] ∨ n = 0) :
    w.after (.look file n) = w := by
  rw [after, look_of_not_worth (worthLooking_eq_false_iff.mpr h)]

theorem snapshot?_cons_of_some {start : World} {file : Text} {earlier : List Event} {t : FileTree}
    (h : start.snapshot? file earlier = some t) {e : Event} (he : e ≠ .clear) :
    start.snapshot? file (e :: earlier) = some t := by
  cases e with
  | clear => exact absurd rfl he
  | look other n => rw [snapshot?, h]
  | write path content => exact h
  | remove path => exact h
  | change files => exact h

theorem snapshot?_look_of_ne {start : World} {file other : Text} (h : other ≠ file) (n : Nat) (earlier : List Event) :
    start.snapshot? file (.look other n :: earlier) = start.snapshot? file earlier := by
  rw [snapshot?]
  cases start.snapshot? file earlier with
  | none => exact if_neg fun hand => h hand.1
  | some t => rfl

/-- **A cache answers from one snapshot of each file**: the file as it was at the first look at it since the cache was
cleared, with none of its lines when it could not be read then. Nothing that happens later changes the answer, and no
look at another file does, until the cache is cleared; the look after that is answered from the file as it then is.
There is nothing to look for without a name and on line 0, and such a look changes nothing. -/
theorem line_run (files : FileTree) (events : List Event) (file : Text) :
    (∀ n, file ≠ [] → n ≠ 0 → (run ⟨files, {}⟩ events).line file n =
      ((snapshot? ⟨files, {}⟩ file events).getD (run ⟨files, {}⟩ events).files).lineInMemory file n) ∧
    (∀ n, file = [] ∨ n = 0 → (run ⟨files, {}⟩ events).line file n = none ∧
      (run ⟨files, {}⟩ (.look file n :: events)) = run ⟨files, {}⟩ events) ∧
    (∀ e ≠ Event.clear, (snapshot? ⟨files, {}⟩ file events).isSome →
      ∀ n, (run ⟨files, {}⟩ (e :: events)).line file n = (run ⟨files, {}⟩ events).line file n) ∧
    (∀ other ≠ file, ∀ k n, (run ⟨files, {}⟩ (.look other k :: events)).line file n =
      (run ⟨files, {}⟩ events).line file n) ∧
    (∀ n, file ≠ [] → n ≠ 0 → (run ⟨files, {}⟩ (.clear :: events)).line file n =
      (run ⟨files, {}⟩ events).files.lineInMemory file n) := by
  have hline : ∀ events n, file ≠ [] → n ≠ 0 → (run ⟨files, {}⟩ events).line file n =
      ((snapshot? ⟨files, {}⟩ file events).getD (run ⟨files, {}⟩ events).files).lineInMemory file n :=
    fun events _ => line_run_of_worth files events
  -- Where there is something to look for, the answer depends on the snapshot and on the files alone.
  have hsame : ∀ later : List Event, snapshot? ⟨files, {}⟩ file later = snapshot? ⟨files, {}⟩ file events →
      ((snapshot? ⟨files, {}⟩ file events).isSome ∨ (run ⟨files, {}⟩ later).files = (run ⟨files, {}⟩ events).files) →
      ∀ n, (run ⟨files, {}⟩ later).line file n = (run ⟨files, {}⟩ events).line file n := by
    intro later hsnapshot hfiles n
    by_cases hworth : file = [] ∨ n = 0
    · rw [line_of_not_worth hworth, line_of_not_worth hworth]
    · rw [not_or] at hworth
      rw [hline later n hworth.1 hworth.2, hline events n hworth.1 hworth.2, hsnapshot]
      rcases hfiles with hsome | hfiles
      · obtain ⟨t, ht⟩ := Option.isSome_iff_exists.mp hsome
        rw [ht, Option.getD_some, Option.getD_some]
      · rw [hfiles]
  refine ⟨hline events, fun n hworth => ?_, fun e he hsome => ?_, fun other hother k => ?_,
    hline (.clear :: events)⟩
  · exact ⟨line_of_not_worth hworth, after_look_of_not_worth hworth⟩
  · obtain ⟨t, ht⟩ := Option.isSome_iff_exists.mp hsome
    exact hsame _ ((snapshot?_cons_of_some ht he).trans ht.symm) (.inl hsome)
  · exact hsame _ (snapshot?_look_of_ne hother k events) (.inr rfl)

end World
end LineCache
end Traceback
