import Traceback.Catalog
import Traceback.Looks
import Traceback.Report.Plain
import Traceback.Store
import Traceback.Writer

/-! # Handling uncaught exceptions

A host may have made any number of engines, which render exceptions, and at most one of them is active.
An exception that nothing catches goes to the active engine, and without one is shown in the interpreter's
own layout.

* `Engine`: settings, rules, where source lines come from, and where the last report is kept.
* `Host`: the files, caches and engines of a running program, and which engine is active.
* `Host.activate`, `Host.install`, `Host.deactivate`: the active engine.
* `Host.handleTo`: what an engine writes of an exception and keeps of it.
* `Host.uncaughtTo`: what happens to an exception that nothing catches.
-/

namespace Traceback
set_option autoImplicit false

/-- Where an engine finds source lines: in memory, or in files through one of the host's caches. -/
inductive LineSource where
  | memory (s : Sources)
  | cached (cache : Nat)

structure Engine where
  settings : Settings := {}
  rules : RuleSet := .builtin
  lines : LineSource
  /-- The path at which reports are kept. -/
  store : Option Text := none

/-- With the catalog's rules, through a cache, and with the standard store. -/
def Engine.standard (settings : Settings) (cache : Nat) (s : Store.Surroundings) : Engine where
  settings := settings
  lines := .cached cache
  store := some (Store.standardPath s)

def Engine.report (e : Engine) (x : Exception) : Report := Report.ofException e.rules x

structure Host where
  files : FileTree
  caches : List LineCache := []
  /-- All engines ever made, known by their position. -/
  engines : List Engine := []
  active : Option Nat := none

namespace Host

/-! ## Source lines -/

def cache (h : Host) (i : Nat) : LineCache := h.caches.getD i {}

def lines (h : Host) : LineSource → Text → Nat → Option Bytes
  | .memory s => s.line
  | .cached i => (h.cache i).line h.files.disk

/-- The host after looks at source lines. -/
def look (h : Host) (source : LineSource) (looks : List Look) : Host :=
  match source with
  | .memory _ => h
  | .cached i => { h with caches := h.caches.set i ((h.cache i).lookAll h.files.disk looks) }

/-- The host with one more cache, and which it is. -/
def newCache (h : Host) : Nat × Host := (h.caches.length, { h with caches := h.caches ++ [{}] })

def clearCache (h : Host) (i : Nat) : Host := { h with caches := h.caches.set i {} }

def formatter (h : Host) (e : Engine) : Formatter :=
  ⟨e.settings, h.lines e.lines, h.files.resolve, h.files.workingDirectory⟩

/-! ## Engines -/

/-- The host with one more engine, and which it is. -/
def make (h : Host) (e : Engine) : Nat × Host := (h.engines.length, { h with engines := h.engines ++ [e] })

/-- Engine `i` takes the place of the active one. -/
def activate (h : Host) (i : Nat) : Host := { h with active := some i }

def activeEngine? (h : Host) : Option Engine := h.active.bind fun i => h.engines[i]?

/-- A new engine takes the place of the active one. -/
def install (h : Host) (e : Engine) : Nat × Host :=
  let (i, h) := h.make e
  (i, h.activate i)

/-- A new standard engine, with a cache of its own, takes the place of the active one. -/
def installStandard (h : Host) (settings : Settings) (s : Store.Surroundings) : Nat × Host :=
  let (cache, h) := h.newCache
  h.install (.standard settings cache s)

/-- No engine is active any more; the one that was is given. -/
def deactivate (h : Host) : Option Nat × Host := (h.active, { h with active := none })

/-! ## Exceptions -/

/-- The report as engine `e` shows it. -/
def render (h : Host) (e : Engine) (r : Report) : Text × Host :=
  let m := h.formatter e
  (r.display m, h.look e.lines (r.looks m e.settings.limit))

/-- The report in the engine's store; a failure has no further consequence. -/
def keep (h : Host) (e : Engine) (r : Report) : Host :=
  match e.store with
  | none => h
  | some path => { h with files := (Store.save h.files path r).1 }

/-- What arrives at `w` of the text that engine `e` writes for an exception, and the report it makes, or why it could
not be written. Only what was written is kept. -/
def handleTo (w : Writer) (h : Host) (e : Engine) (x : Exception) : (Text × Except FileFault Report) × Host :=
  let r := e.report x
  let (text, h) := h.render e r
  let written := w.write (text ++ ['\n'])
  match written.2 with
  | .error f => ((written.1, .error f), h)
  | .ok () => ((written.1, .ok r), h.keep e r)

/-- What engine `e` writes for an exception, and the report it makes and keeps, where everything arrives. -/
def handle (h : Host) (e : Engine) (x : Exception) : (Text × Report) × Host :=
  let ((text, _), h) := h.handleTo .steady e x
  ((text, e.report x), h)

/-- What arrives at `w` of an exception that nothing has caught; that it does not arrive has no further consequence. -/
def uncaughtTo (w : Writer) (h : Host) (x : Exception) : Text × Host :=
  match h.activeEngine? with
  | none => ((w.write x.plain).1, h)
  | some e =>
    let ((arrived, _), h) := h.handleTo w e x
    (arrived, h)

/-- What is written for an exception that nothing has caught, where everything arrives. -/
def uncaught (h : Host) (x : Exception) : Text × Host := h.uncaughtTo .steady x

/-- The report kept last in the engine's store, with all frames, or a notice. -/
def lastTrace (h : Host) (e : Engine) : Text × Host :=
  match e.store with
  | none => (Store.noTrace, h)
  | some path =>
    let m := h.formatter e
    let looks :=
      match Store.load h.files.disk path with
      | .ok r => r.looks m 0
      | .error _ => []
    (Store.lastTrace h.files.disk path m, h.look e.lines looks)

end Host
end Traceback
