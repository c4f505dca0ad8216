import Traceback.Host
import Traceback.Proofs.Report.Agreement
import Traceback.Proofs.Store

/-! # Runs of a host

Engines are installed and deactivated, exceptions are handled, and files change in between.

* `Action`, `Host.run`: what happens to a host, one thing after the other.
* `Host.installed?`, `Host.active_run`: the active engine is the one installed last, unless it was deactivated since.
* `Host.saved?`, `Host.files_of_saved?`: what an action keeps, and where.
* `Host.Undisturbed.read_run`, `Host.Undisturbed.load_run`: a store that only engines write has the report made last
  for it.
-/

namespace Traceback
set_option autoImplicit false

/-! ## Actions -/

inductive Action where
  | install (e : Engine)
  | installStandard (settings : Settings) (s : Store.Surroundings)
  | deactivate
  /-- An exception that nothing has caught. -/
  | uncaught (w : Writer) (x : Exception)
  /-- An exception given to an engine, active or not. -/
  | handle (w : Writer) (e : Engine) (x : Exception)
  /-- Of others, who change files and look at lines through the caches. -/
  | others (files : FileTree) (caches : List LineCache)

def Action.installs? (h : Host) : Action → Option Engine
  | .install e => some e
  | .installStandard settings s => some (.standard settings h.caches.length s)
  | _ => none

namespace Host

def after (h : Host) : Action → Host
  | .install e => (h.install e).2
  | .installStandard settings s => (h.installStandard settings s).2
  | .deactivate => h.deactivate.2
  | .uncaught w x => (h.uncaughtTo w x).2
  | .handle w e x => (h.handleTo w e x).2
  | .others files caches => { h with files := files, caches := caches }

/-- The host after these actions, of which the latest comes first. -/
def run (h : Host) : List Action → Host
  | [] => h
  | a :: earlier => (h.run earlier).after a

/-! ## One exception -/

section Handling
variable (w : Writer) (h : Host) (e : Engine) (x : Exception)

/-- The text that engine `e` gives a writer for an exception. -/
def textFor : Text := (h.render e (e.report x)).1 ++ ['\n']

@[simp]
theorem look_files (source : LineSource) (looks : List Look) : (h.look source looks).files = h.files := by
  cases source <;> rfl

@[simp]
theorem look_engines (source : LineSource) (looks : List Look) : (h.look source looks).engines = h.engines := by
  cases source <;> rfl

@[simp]
theorem look_active (source : LineSource) (looks : List Look) : (h.look source looks).active = h.active := by
  cases source <;> rfl

theorem keep_files (r : Report) : (h.keep e r).files =
    match e.store with
    | none => h.files
    | some path => (Store.save h.files path r).1 := by
  unfold keep
  cases e.store <;> rfl

@[simp]
theorem keep_engines (r : Report) : (h.keep e r).engines = h.engines := by
  unfold keep
  cases e.store <;> rfl

@[simp]
theorem keep_active (r : Report) : (h.keep e r).active = h.active := by
  unfold keep
  cases e.store <;> rfl

section Writing
variable {w h e x}

theorem handleTo_of_error {f : FileFault} (hfault : (w.write (h.textFor e x)).2 = .error f) :
    h.handleTo w e x = (((w.write (h.textFor e x)).1, .error f), (h.render e (e.report x)).2) := by
  rw [textFor] at hfault ⊢
  rw [handleTo]
  dsimp only
  rw [hfault]

theorem handleTo_of_ok (hwritten : (w.write (h.textFor e x)).2 = .ok ()) :
    h.handleTo w e x = ((h.textFor e x, .ok (e.report x)), (h.render e (e.report x)).2.keep e (e.report x)) := by
  have hwhole := w.whole _ hwritten
  rw [textFor] at hwritten hwhole ⊢
  rw [handleTo]
  dsimp only
  rw [hwritten, hwhole]

theorem files_of_unwritten {f : FileFault} (hfault : (w.write (h.textFor e x)).2 = .error f) :
    (h.handleTo w e x).2.files = h.files := by
  rw [handleTo_of_error hfault, render]
  exact look_files ..

theorem files_of_written (hwritten : (w.write (h.textFor e x)).2 = .ok ()) :
    (h.handleTo w e x).2.files =
      match e.store with
      | none => h.files
      | some path => (Store.save h.files path (e.report x)).1 := by
  rw [handleTo_of_ok hwritten, render, keep_files, look_files]

end Writing

/-- A text is written or a fault met, and nothing else is learned. -/
theorem handleTo_fst : (h.handleTo w e x).1 =
    ((w.write (h.textFor e x)).1, (w.write (h.textFor e x)).2.map fun _ => e.report x) := by
  cases hresult : (w.write (h.textFor e x)).2 with
  | error f =>
    rw [handleTo_of_error hresult]
    rfl
  | ok =>
    rw [handleTo_of_ok hresult, w.whole _ hresult]
    rfl

@[simp]
theorem handleTo_engines : (h.handleTo w e x).2.engines = h.engines := by
  cases hresult : (w.write (h.textFor e x)).2 with
  | error f => rw [handleTo_of_error hresult, render, look_engines]
  | ok => rw [handleTo_of_ok hresult, keep_engines, render, look_engines]

@[simp]
theorem handleTo_active : (h.handleTo w e x).2.active = h.active := by
  cases hresult : (w.write (h.textFor e x)).2 with
  | error f => rw [handleTo_of_error hresult, render, look_active]
  | ok => rw [handleTo_of_ok hresult, keep_active, render, look_active]

theorem uncaughtTo_of_none {h : Host} (hnone : h.activeEngine? = none) :
    h.uncaughtTo w x = ((w.write x.plain).1, h) := by
  rw [uncaughtTo, hnone]

theorem uncaughtTo_of_some {h : Host} {e : Engine} (hsome : h.activeEngine? = some e) :
    h.uncaughtTo w x = ((w.write (h.textFor e x)).1, (h.handleTo w e x).2) := by
  rw [uncaughtTo, hsome]
  exact congrArg (fun told => (told.1, (h.handleTo w e x).2)) (handleTo_fst w h e x)

@[simp]
theorem uncaughtTo_engines : (h.uncaughtTo w x).2.engines = h.engines := by
  cases hactive : h.activeEngine? with
  | none => rw [uncaughtTo_of_none w x hactive]
  | some e => rw [uncaughtTo_of_some w x hactive, handleTo_engines]

@[simp]
theorem uncaughtTo_active : (h.uncaughtTo w x).2.active = h.active := by
  cases hactive : h.activeEngine? with
  | none => rw [uncaughtTo_of_none w x hactive]
  | some e => rw [uncaughtTo_of_some w x hactive, handleTo_active]

end Handling

/-! ## The active engine -/

section Engines
variable (start : Host)

def installations : List Action → List Engine
  | [] => []
  | a :: earlier => installations earlier ++ (a.installs? (start.run earlier)).toList

/-- The engine that was installed last, with its position among all engines, unless it was deactivated since. -/
def installed? : List Action → Option (Nat × Engine)
  | [] => none
  | .deactivate :: _ => none
  | a :: earlier =>
    match a.installs? (start.run earlier) with
    | some e => some ((start.engines ++ installations start earlier).length, e)
    | none => installed? earlier

variable {start} {actions : List Action} {i : Nat} {e : Engine}

theorem engines_after (h : Host) (a : Action) : (h.after a).engines = h.engines ++ (a.installs? h).toList := by
  cases a with
  | install e => rfl
  | installStandard settings s => rfl
  | deactivate => exact (List.append_nil _).symm
  | uncaught w x => exact (uncaughtTo_engines w h x).trans (List.append_nil _).symm
  | handle w e x => exact (handleTo_engines w h e x).trans (List.append_nil _).symm
  | others files caches => exact (List.append_nil _).symm

theorem engines_run : (start.run actions).engines = start.engines ++ start.installations actions := by
  induction actions with
  | nil => exact (List.append_nil _).symm
  | cons a earlier ih => rw [run, engines_after, ih, installations, List.append_assoc]

theorem active_run (hstart : start.active = none) :
    (start.run actions).active = (start.installed? actions).map Prod.fst := by
  induction actions with
  | nil => exact hstart
  | cons a earlier ih =>
    -- A new engine comes after all there are, so its position is their number.
    cases a with
    | install e => exact congrArg (fun engines => some engines.length) engines_run
    | installStandard settings s => exact congrArg (fun engines => some engines.length) engines_run
    | deactivate => rfl
    | uncaught w x => exact (uncaughtTo_active w (start.run earlier) x).trans ih
    | handle w e x => exact (handleTo_active w (start.run earlier) e x).trans ih
    | others files caches => exact ih

theorem getElem?_engines_after {h : Host} (hi : h.engines[i]? = some e) (a : Action) :
    (h.after a).engines[i]? = some e := by
  have hlt : i < h.engines.length := (List.getElem?_eq_some_iff.mp hi).1
  rw [engines_after, List.getElem?_append_left hlt, hi]

theorem getElem?_engines_install (h : Host) {a : Action} (ha : a.installs? h = some e) :
    (h.after a).engines[h.engines.length]? = some e := by
  rw [engines_after, ha]
  exact List.getElem?_concat_length

theorem getElem?_engines_run (h : start.installed? actions = some (i, e)) :
    (start.run actions).engines[i]? = some e := by
  induction actions with
  | nil => cases h
  | cons a earlier ih =>
    cases a with
    | install e' =>
      cases h
      rw [← engines_run]
      exact getElem?_engines_install _ rfl
    | installStandard settings s =>
      cases h
      rw [← engines_run]
      exact getElem?_engines_install _ rfl
    | deactivate => cases h
    | uncaught w x => exact getElem?_engines_after (ih h) _
    | handle w e' x => exact getElem?_engines_after (ih h) _
    | others files caches => exact getElem?_engines_after (ih h) _

theorem activeEngine?_run (hstart : start.active = none) :
    (start.run actions).activeEngine? = (start.installed? actions).map Prod.snd := by
  rw [activeEngine?, active_run hstart]
  cases hinstalled : start.installed? actions with
  | none => rfl
  | some p => exact getElem?_engines_run hinstalled

end Engines

/-! ## Stores -/

section Stores
variable (start : Host) (path : Text)

/-- The exception that an action hands to an engine, that engine, and where it writes. -/
def handled? (earlier : List Action) : Action → Option (Writer × Engine × Exception)
  | .handle w e x => some (w, e, x)
  | .uncaught w x => (start.installed? earlier).map fun installed => (w, installed.2, x)
  | _ => none

/-- Where an action keeps a report, and the report: its text could be written. -/
def saved? (earlier : List Action) (a : Action) : Option (Text × Report) :=
  (start.handled? earlier a).bind fun (w, e, x) =>
    match (w.write ((start.run earlier).textFor e x)).2 with
    | .ok () => e.store.map fun path => (path, e.report x)
    | .error _ => none

/-- The report of the last exception that was handled by an engine whose store is at `path` and could be written. -/
def latest? : List Action → Option Report
  | [] => none
  | a :: earlier =>
    match start.saved? earlier a with
    | some (place, r) => if place = path then some r else latest? earlier
    | none => latest? earlier

/-- Reports for `path` are no larger than memory and can be written there. Those for other paths lie apart from it, and
others leave it alone. -/
inductive Undisturbed : List Action → Prop where
  | start : Undisturbed []
  | next (a : Action) (earlier : List Action) (hearlier : Undisturbed earlier)
      (hsaved : ∀ r, start.saved? earlier a = some (path, r) →
        r.Addressable ∧ (Store.save (start.run earlier).files path r).2 = .ok ())
      (helsewhere : ∀ place r, start.saved? earlier a = some (place, r) → place ≠ path →
        Store.Apart (start.run earlier).files place r path)
      (hothers : ∀ files caches, a = .others files caches → files.read path = (start.run earlier).files.read path) :
      Undisturbed (a :: earlier)

variable {start path} {actions earlier : List Action} {a : Action} {r : Report}

/-! ### What an action leaves -/

theorem after_of_handled? {w : Writer} {e : Engine} {x : Exception} (hstart : start.active = none)
    (h : start.handled? earlier a = some (w, e, x)) :
    (start.run earlier).after a = ((start.run earlier).handleTo w e x).2 := by
  cases a with
  | handle w' e' x' =>
    cases h
    rfl
  | uncaught w' x' =>
    obtain ⟨⟨i, installed⟩, hinstalled, hpair⟩ := Option.map_eq_some_iff.mp h
    cases hpair
    have hactive : (start.run earlier).activeEngine? = some installed := by
      rw [activeEngine?_run hstart, hinstalled]
      rfl
    rw [after, uncaughtTo_of_some w x hactive]
  | install e' => cases h
  | installStandard settings s => cases h
  | deactivate => cases h
  | others files caches => cases h

theorem files_of_saved? {place : Text} (hstart : start.active = none) (h : start.saved? earlier a = some (place, r)) :
    (start.run (a :: earlier)).files = (Store.save (start.run earlier).files place r).1 := by
  obtain ⟨⟨w, e, x⟩, hhandled, hsaved⟩ := Option.bind_eq_some_iff.mp h
  dsimp only at hsaved
  split at hsaved
  next hwritten =>
    obtain ⟨store, hstore, hpair⟩ := Option.map_eq_some_iff.mp hsaved
    cases hpair
    rw [run, after_of_handled? hstart hhandled, files_of_written hwritten, hstore]
  next => cases hsaved

theorem files_of_handled?_none (hstart : start.active = none) (h : start.handled? earlier a = none)
    (hothers : ∀ files caches, a ≠ .others files caches) :
    (start.run (a :: earlier)).files = (start.run earlier).files := by
  cases a with
  | install e => rfl
  | installStandard settings s => rfl
  | deactivate => rfl
  | uncaught w x =>
    have hactive : (start.run earlier).activeEngine? = none := by
      rw [activeEngine?_run hstart, Option.map_eq_none_iff]
      exact Option.map_eq_none_iff.mp h
    rw [run, after, uncaughtTo_of_none w x hactive]
  | handle w e x => cases h
  | others files caches => exact absurd rfl (hothers files caches)

theorem files_of_saved?_none (hstart : start.active = none) (h : start.saved? earlier a = none)
    (hothers : ∀ files caches, a ≠ .others files caches) :
    (start.run (a :: earlier)).files = (start.run earlier).files := by
  cases hhandled : start.handled? earlier a with
  | none => exact files_of_handled?_none hstart hhandled hothers
  | some handled =>
    obtain ⟨w, e, x⟩ := handled
    rw [run, after_of_handled? hstart hhandled]
    cases hresult : (w.write ((start.run earlier).textFor e x)).2 with
    | error f => exact files_of_unwritten hresult
    | ok =>
      rw [saved?, hhandled, Option.bind_some] at h
      dsimp only at h
      rw [hresult] at h
      rw [files_of_written hresult, Option.map_eq_none_iff.mp h]

/-- An action that keeps nothing at `path` leaves what is found there. -/
theorem read_of_saved?_ne (hstart : start.active = none) (h : ∀ r, start.saved? earlier a ≠ some (path, r))
    (helsewhere : ∀ place r, start.saved? earlier a = some (place, r) → place ≠ path →
      Store.Apart (start.run earlier).files place r path)
    (hothers : ∀ files caches, a = .others files caches → files.read path = (start.run earlier).files.read path) :
    (start.run (a :: earlier)).files.read path = (start.run earlier).files.read path := by
  cases hsaved : start.saved? earlier a with
  | some saved =>
    obtain ⟨place, r⟩ := saved
    have hplace : place ≠ path := by
      rintro rfl
      exact h r hsaved
    rw [files_of_saved? hstart hsaved]
    exact (helsewhere place r hsaved hplace).read_eq
  | none =>
    cases a with
    | others files caches => exact hothers files caches rfl
    | _ => rw [files_of_saved?_none hstart hsaved nofun]

/-! ### What a run leaves -/

theorem latest?_cons_of_saved? (h : start.saved? earlier a = some (path, r)) :
    start.latest? path (a :: earlier) = some r := by
  rw [latest?, h]
  exact if_pos rfl

theorem latest?_cons_of_ne (h : ∀ r, start.saved? earlier a ≠ some (path, r)) :
    start.latest? path (a :: earlier) = start.latest? path earlier := by
  rw [latest?]
  cases hsaved : start.saved? earlier a with
  | none => rfl
  | some saved =>
    obtain ⟨place, r⟩ := saved
    refine if_neg ?_
    rintro rfl
    exact h r hsaved

namespace Undisturbed

theorem addressable (h : Undisturbed start path actions) (hr : start.latest? path actions = some r) :
    r.Addressable := by
  induction h with
  | start => cases hr
  | next a earlier _ hsaved _ _ ih =>
    by_cases hkept : ∃ kept, start.saved? earlier a = some (path, kept)
    · obtain ⟨kept, hkept⟩ := hkept
      rw [latest?_cons_of_saved? hkept] at hr
      cases hr
      exact (hsaved r hkept).1
    · rw [latest?_cons_of_ne (not_exists.mp hkept)] at hr
      exact ih hr

theorem read_run (hstart : start.active = none) (h : Undisturbed start path actions) :
    (start.run actions).files.read path =
      match start.latest? path actions with
      | some r => .ok (Record.encode r)
      | none => start.files.read path := by
  induction h with
  | start => rfl
  | next a earlier _ hsaved helsewhere hothers ih =>
    by_cases hkept : ∃ kept, start.saved? earlier a = some (path, kept)
    · obtain ⟨kept, hkept⟩ := hkept
      rw [latest?_cons_of_saved? hkept, files_of_saved? hstart hkept]
      exact Store.read_of_save (hsaved kept hkept).2
    · rw [latest?_cons_of_ne (not_exists.mp hkept), ← ih]
      exact read_of_saved?_ne hstart (not_exists.mp hkept) helsewhere hothers

theorem load_run (hstart : start.active = none) (h : Undisturbed start path actions) :
    Store.load (start.run actions).files.disk path =
      match start.latest? path actions with
      | some r => .ok r
      | none => Store.load start.files.disk path := by
  have hread := h.read_run hstart
  cases hlatest : start.latest? path actions with
  | none =>
    rw [hlatest] at hread
    exact Store.load_congr hread
  | some r =>
    rw [hlatest] at hread
    exact Store.load_of_read hread (h.addressable hlatest)

theorem kept (h : Undisturbed start path earlier) (hsaved : start.saved? earlier a = some (path, r))
    (haddressable : r.Addressable) (hwritten : (Store.save (start.run earlier).files path r).2 = .ok ()) :
    Undisturbed start path (a :: earlier) := by
  refine .next a earlier h (fun r' hr' => ?_) (fun place r' hr' hplace => ?_) fun files caches hothers => ?_
  · rw [hsaved] at hr'
    cases hr'
    exact ⟨haddressable, hwritten⟩
  · rw [hsaved] at hr'
    cases hr'
    exact absurd rfl hplace
  · rw [hothers] at hsaved
    cases hsaved

theorem elsewhere {place : Text} (h : Undisturbed start path earlier)
    (hsaved : start.saved? earlier a = some (place, r)) (hplace : place ≠ path)
    (hapart : Store.Apart (start.run earlier).files place r path) : Undisturbed start path (a :: earlier) := by
  refine .next a earlier h (fun r' hr' => ?_) (fun place' r' hr' _ => ?_) fun files caches hothers => ?_
  · rw [hsaved] at hr'
    cases hr'
    exact absurd rfl hplace
  · rw [hsaved] at hr'
    cases hr'
    exact hapart
  · rw [hothers] at hsaved
    cases hsaved

end Undisturbed
end Stores

end Host
end Traceback
