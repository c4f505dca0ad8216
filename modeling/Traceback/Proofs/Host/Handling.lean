import Mathlib
import Traceback.Proofs.Host.Run

/-! # Handling in a run

What is written for an exception, and what a run leaves in the stores.

* `Engine.sources`: where an engine looks when it shows a report.
* `Host.handle_text_eq`: what is written depends on these, and not on the engine's store.
* `Host.active_and_stores_run`: the active engine, what is written, and all stores after a run.
* `Host.not_apart_from_stores`: a store may be a source, and a directory made for one store may lie at another.
-/

namespace Traceback
set_option autoImplicit false

/-! ## What is written -/

/-- The boundary, and the files of the errors that are shown. -/
def Engine.sources (e : Engine) (r : Report) : List Text :=
  e.settings.boundary.toList ++ r.history.flatMap fun (error, _) => error.frames.map (·.file)

namespace Host

/-- Wherever its reports are kept and whatever else has changed: an engine that finds the same at its sources gives
writers the same. -/
theorem textFor_eq {h h' : Host} {e : Engine} {x : Exception} (store : Option Text)
    (hagree : Formatter.Agree (e.sources (e.report x)) (h.formatter e) (h'.formatter e)) :
    h'.textFor { e with store := store } x = h.textFor e x := by
  have hdisplay : Report.display (h.formatter e) (e.report x) = Report.display (h'.formatter e) (e.report x) := by
    refine hagree.display_eq (fun boundary hboundary => ?_) fun p hp f hf => ?_
    · exact List.mem_append_left _ (Option.mem_toList.mpr hboundary)
    · exact List.mem_append_right _ (List.mem_flatMap.mpr ⟨p, hp, List.mem_map_of_mem hf⟩)
  calc h'.textFor { e with store := store } x
      = Report.display (h'.formatter e) (e.report x) ++ ['\n'] := rfl
    _ = h.textFor e x := by rw [← hdisplay, textFor, render]

/-! ## Runs -/

/-- **What a run leaves.** The active engine is the one installed last, unless it was deactivated since; deactivating
gives just that engine and leaves none. An exception that nothing catches is shown plainly, and the host left as it
is, when no engine is active. Else what is written is the active engine's rendering of its report and a line feed.
No store has a part in the report that an engine gives, nor in what it writes as far as it finds the same at its
sources. What cannot be written is answered with its fault and leaves all files as they are. A store that only engines
write has the report made last for its path, of those that could be written, and what it had before the run when there
was none. -/
theorem active_and_stores_run {start : Host} (hstart : start.active = none) (actions : List Action) :
    ((start.run actions).active = (start.installed? actions).map Prod.fst ∧
      (start.run actions).activeEngine? = (start.installed? actions).map Prod.snd ∧
      (start.run actions).deactivate =
        ((start.installed? actions).map Prod.fst, { start.run actions with active := none })) ∧
    (∀ w x, start.installed? actions = none →
      (start.run actions).uncaughtTo w x = ((w.write x.plain).1, start.run actions)) ∧
    (∀ w x i e, start.installed? actions = some (i, e) → (start.run actions).uncaughtTo w x =
      ((w.write (((start.run actions).render e (e.report x)).1 ++ ['\n'])).1,
        ((start.run actions).handleTo w e x).2)) ∧
    (∀ (w : Writer) (x : Exception) (e : Engine) (store : Option Text) (h : Host),
      (∀ r, (h.handleTo w { e with store := store } x).1.2 = .ok r → r = e.report x) ∧
      (∀ f, (h.handleTo w { e with store := store } x).1.2 = .error f →
        (h.handleTo w { e with store := store } x).2.files = h.files) ∧
      (Formatter.Agree (e.sources (e.report x)) ((start.run actions).formatter e) (h.formatter e) →
        ∀ arrived result,
          w.write (((start.run actions).render e (e.report x)).1 ++ ['\n']) = (arrived, result) →
          (h.handleTo w { e with store := store } x).1 = (arrived, result.map fun _ => e.report x))) ∧
    ∀ path, Undisturbed start path actions → Store.load (start.run actions).files.disk path =
      match start.latest? path actions with
      | some r => .ok r
      | none => Store.load start.files.disk path := by
  have hactive : (start.run actions).active = (start.installed? actions).map Prod.fst := active_run hstart
  have hengine : (start.run actions).activeEngine? = (start.installed? actions).map Prod.snd :=
    activeEngine?_run hstart
  refine ⟨⟨hactive, hengine, ?_⟩, fun w x hnone => ?_, fun w x i e hsome => ?_,
    fun w x e store h => ⟨fun r hr => ?_, fun f hf => ?_, fun hagree arrived result hwrite => ?_⟩,
    fun path hpath => hpath.load_run hstart⟩
  · rw [deactivate, hactive]
  · rw [hnone] at hengine
    exact uncaughtTo_of_none w x hengine
  · rw [hsome] at hengine
    exact uncaughtTo_of_some w x hengine
  · rw [handleTo_fst] at hr
    cases hresult : (w.write (h.textFor { e with store := store } x)).2 with
    | error f =>
      rw [hresult] at hr
      cases hr
    | ok =>
      rw [hresult] at hr
      cases hr
      rfl
  · rw [handleTo_fst] at hf
    cases hresult : (w.write (h.textFor { e with store := store } x)).2 with
    | error f => exact files_of_unwritten hresult
    | ok =>
      rw [hresult] at hf
      cases hf
  · rw [handleTo_fst, textFor_eq store hagree, textFor, hwrite]
    rfl

/-! ### A run with two engines

An exception before any engine is active, one through an active engine, one given to another engine, and one that
cannot be written. -/

def sampleHost : Host where
  files := {}

def nearPath : Text := "/a/x".toList

def farPath : Text := "/b/y".toList

def nearEngine : Engine where
  rules := {}
  lines := .memory {}
  store := some nearPath

def farEngine : Engine where
  settings := { limit := 1 }
  rules := {}
  lines := .memory {}
  store := some farPath

def nearException : Exception where
  error :=
    { typeName := "ValueError".toList
      message := "bad".toList
      frames := [{ file := "<main>".toList, line := 1, scope := ['f'] }] }

def farException : Exception where
  error := { typeName := "KeyError".toList, message := "'k'".toList }

def nearActions : List Action :=
  [.uncaught .steady nearException, .install nearEngine, .deactivate, .uncaught .steady nearException]

def sampleActions : List Action :=
  .handle (.broken .notFound) nearEngine farException :: .handle .steady farEngine farException :: nearActions

def nearReport : Report where
  error :=
    { category := ⟨"ValueError".toList, []⟩
      received := "bad".toList
      rule := none
      groups := .ofPairs []
      message := "bad".toList
      frames := [{ file := "<main>".toList, line := 1, scope := ['f'] }] }

def farReport : Report where
  error :=
    { category := ⟨"KeyError".toList, []⟩
      received := "'k'".toList
      rule := none
      groups := .ofPairs []
      message := "'k'".toList
      frames := [] }

theorem report_near : nearEngine.report nearException = nearReport := by decide +kernel

theorem report_far : farEngine.report farException = farReport := by decide +kernel

/-! #### The two stores -/

/-- The files with a report at the near path. -/
def nearFiles : FileTree where
  entries := [(["a".toList, "x".toList], .file (Record.encode nearReport)), (["a".toList], .directory)]

theorem save_near : Store.save {} nearPath nearReport = (nearFiles, .ok ()) := by cbv

theorem save_far : (Store.save nearFiles farPath farReport).2 = .ok () := by cbv

theorem apart_near (r : Report) : Store.Apart {} nearPath r farPath :=
  .straight true true ["a".toList, "x".toList] ["b".toList, "y".toList]
    ⟨by decide, by decide, by decide, by decide, by decide, by decide⟩
    ⟨by decide, by decide, by decide, by decide, by decide, by decide⟩ (by decide) (by decide)

theorem apart_far (r : Report) : Store.Apart nearFiles farPath r nearPath :=
  .straight true true ["b".toList, "y".toList] ["a".toList, "x".toList]
    ⟨by decide, by decide, by decide, by decide, by decide +kernel, by decide +kernel⟩
    ⟨by decide, by decide, by decide, by decide, by decide +kernel, by decide +kernel⟩ (by decide) (by decide)

theorem saved?_near : sampleHost.saved? [.install nearEngine, .deactivate, .uncaught .steady nearException]
    (.uncaught .steady nearException) = some (nearPath, nearReport) := by
  rw [← report_near]
  rfl

theorem saved?_far : sampleHost.saved? nearActions (.handle .steady farEngine farException) =
    some (farPath, farReport) := by
  rw [← report_far]
  rfl

theorem saved?_lost (earlier : List Action) :
    sampleHost.saved? earlier (.handle (.broken .notFound) nearEngine farException) = none := rfl

theorem files_near : (sampleHost.run nearActions).files = nearFiles := by
  have hfiles : (sampleHost.run nearActions).files = _ := files_of_saved? rfl saved?_near
  rw [hfiles]
  exact congrArg Prod.fst save_near

theorem undisturbed_installed (path : Text) :
    Undisturbed sampleHost path [.install nearEngine, .deactivate, .uncaught .steady nearException] :=
  .next _ _ (.next _ _ (.next _ _ .start nofun nofun nofun) nofun nofun nofun) nofun nofun nofun

theorem undisturbed_near : Undisturbed sampleHost nearPath sampleActions := by
  have hfirst : Undisturbed sampleHost nearPath nearActions :=
    (undisturbed_installed nearPath).kept saved?_near (by decide) (congrArg Prod.snd save_near)
  have hsecond : Undisturbed sampleHost nearPath (.handle .steady farEngine farException :: nearActions) :=
    hfirst.elsewhere saved?_far (by decide) (files_near ▸ apart_far farReport)
  exact .next _ _ hsecond nofun nofun nofun

theorem undisturbed_far : Undisturbed sampleHost farPath sampleActions := by
  have hfirst : Undisturbed sampleHost farPath nearActions :=
    (undisturbed_installed farPath).elsewhere saved?_near (by decide) (apart_near nearReport)
  have hsecond : Undisturbed sampleHost farPath (.handle .steady farEngine farException :: nearActions) :=
    hfirst.kept saved?_far (by decide) (files_near ▸ save_far)
  exact .next _ _ hsecond nofun nofun nofun

theorem latest?_lost (path : Text) : sampleHost.latest? path sampleActions =
    sampleHost.latest? path (.handle .steady farEngine farException :: nearActions) :=
  latest?_cons_of_ne fun r hr => by
    rw [saved?_lost] at hr
    cases hr

theorem latest?_near : sampleHost.latest? nearPath sampleActions = some nearReport := by
  have hfar : ∀ r, sampleHost.saved? nearActions (.handle .steady farEngine farException) ≠ some (nearPath, r) := by
    intro r hr
    rw [saved?_far] at hr
    cases hr
  rw [latest?_lost, latest?_cons_of_ne hfar]
  exact latest?_cons_of_saved? saved?_near

theorem latest?_far : sampleHost.latest? farPath sampleActions = some farReport := by
  rw [latest?_lost]
  exact latest?_cons_of_saved? saved?_far

/-- Nothing can be kept at the near path. -/
def sampleBlocked : Host where
  files := { entries := [(["a".toList], .file [])] }

theorem agree_sample :
    Formatter.Agree (nearEngine.sources (nearEngine.report nearException))
      ((sampleHost.run nearActions).formatter nearEngine) (sampleBlocked.formatter nearEngine) where
  settings := rfl
  directory := by
    show (sampleHost.run nearActions).files.workingDirectory = sampleBlocked.files.workingDirectory
    rw [files_near]
    cbv
  resolveDirectory := by
    show FileTree.resolve (sampleHost.run nearActions).files (sampleHost.run nearActions).files.workingDirectory =
      sampleBlocked.files.resolve sampleBlocked.files.workingDirectory
    rw [files_near]
    cbv
  lines _ _ := rfl
  resolve := by
    intro file hfile
    cases List.mem_singleton.mp hfile
    show FileTree.resolve (sampleHost.run nearActions).files "<main>".toList = _
    rw [files_near]
    cbv

theorem active_and_stores_sample :
    sampleHost.active = none ∧ Undisturbed sampleHost nearPath sampleActions ∧
      Undisturbed sampleHost farPath sampleActions ∧ (sampleHost.run sampleActions).deactivate.1 = some 0 ∧
      (sampleBlocked.handleTo .steady nearEngine nearException).1 =
        (((sampleHost.run nearActions).render nearEngine nearReport).1 ++ ['\n'], .ok nearReport) ∧
      (sampleHost.handleTo (.broken .notFound) nearEngine farException).2.files = sampleHost.files ∧
      Store.load (sampleHost.run sampleActions).files.disk nearPath = .ok nearReport ∧
      Store.load (sampleHost.run sampleActions).files.disk farPath = .ok farReport := by
  have hactive : sampleHost.active = none := rfl
  obtain ⟨⟨-, -, hdeactivate⟩, -, -, hlost, hload⟩ := active_and_stores_run hactive sampleActions
  obtain ⟨-, -, -, hwritten, -⟩ := active_and_stores_run hactive nearActions
  refine ⟨hactive, undisturbed_near, undisturbed_far, ?_, ?_, ?_, ?_, ?_⟩
  · rw [hdeactivate]
    rfl
  · rw [← report_near]
    exact (hwritten .steady _ _ nearEngine.store _).2.2 agree_sample _ _ rfl
  · exact (hlost (.broken .notFound) _ nearEngine nearEngine.store _).2.1 .notFound rfl
  · rw [hload _ undisturbed_near, latest?_near]
  · rw [hload _ undisturbed_far, latest?_far]

/-! ### Stores that are seen

An exception in the file at which the engine keeps reports: its source line is the first line of the record. The
directory of that file is made when there is none, and then it is what lies at its path. Nothing lies there when the
exception could not be written. -/

def shelf : Host where
  files := {}

def shelfPath : Text := "/a/b".toList

def shelfEngine : Engine where
  settings := { hideRaises := false }
  rules := {}
  lines := .cached 0
  store := some shelfPath

def shelfException : Exception where
  error := { typeName := "ValueError".toList, frames := [{ file := shelfPath, line := 1, scope := ['f'] }] }

def shelfReport : Report where
  error :=
    { category := ⟨"ValueError".toList, []⟩
      received := []
      rule := none
      groups := .ofPairs []
      message := []
      frames := [{ file := shelfPath, line := 1, scope := ['f'] }] }

theorem report_shelf : shelfEngine.report shelfException = shelfReport := by decide +kernel

theorem not_apart_from_stores :
    (¬ ∀ (h : Host) (e : Engine) (x : Exception) (path : Text) (r : Report),
      (handle { h with files := (Store.save h.files path r).1 } e x).1 = (h.handle e x).1) ∧
    (¬ ∀ (start : Host) (e : Engine) (x : Exception) (path : Text), start.active = none → e.store ≠ some path →
      Store.load (start.run [.handle .steady e x]).files.disk path = Store.load start.files.disk path) ∧
    ¬ ∀ (start : Host) (w : Writer) (e : Engine) (x : Exception) (path : Text), start.active = none →
      e.store = some path → (Store.save start.files path (e.report x)).2 = .ok () →
      Store.load (start.run [.handle w e x]).files.disk path = .ok (e.report x) := by
  have hbefore : Store.load shelf.files.disk shelfPath = .error .missing := by cbv
  have hsaved : (Store.save shelf.files shelfPath shelfReport).2 = .ok () := by cbv
  refine ⟨fun h => ?_, fun h => ?_, fun h => ?_⟩
  · have htexts : textFor { shelf with files := (Store.save shelf.files shelfPath shelfReport).1 } shelfEngine
        shelfException = shelf.textFor shelfEngine shelfException :=
      congrArg Prod.fst (h shelf shelfEngine shelfException shelfPath shelfReport)
    have hempty : (shelf.render shelfEngine shelfReport).1 = "a/b:1 in f\n\nValueError".toList := by cbv
    have hfull : (render { shelf with files := (Store.save shelf.files shelfPath shelfReport).1 } shelfEngine
        shelfReport).1 = "a/b:1 in f\n\n    TINYERR\x01\n\nValueError".toList := by cbv
    rw [textFor, textFor, report_shelf, hempty, hfull] at htexts
    exact absurd htexts (by decide)
  · have hload := h shelf shelfEngine shelfException ['/', 'a'] rfl (by decide)
    have hmissing : Store.load shelf.files.disk ['/', 'a'] = .error .missing := by cbv
    have hdirectory : Store.load (Store.save shelf.files shelfPath shelfReport).1.disk ['/', 'a'] =
        .error (.files .isDirectory) := by cbv
    have hfiles : (shelf.run [.handle .steady shelfEngine shelfException]).files =
        (Store.save shelf.files shelfPath shelfReport).1 := by
      rw [← report_shelf]
      exact files_of_written rfl
    rw [hfiles, hmissing, hdirectory] at hload
    cases hload
  · have hload := h shelf (.broken .notFound) shelfEngine shelfException shelfPath rfl rfl (report_shelf ▸ hsaved)
    have hfiles : (shelf.run [.handle (.broken .notFound) shelfEngine shelfException]).files = shelf.files :=
      files_of_unwritten rfl
    rw [hfiles, hbefore] at hload
    cases hload

end Host
end Traceback
