import Traceback.Catalog
import Traceback.CommandLine.Invocation
import Traceback.Exception.Json
import Traceback.Log.Report
import Traceback.Store
import Traceback.Writer

/-! # The command line

* `CommandLine.record`: the exception that a record describes.
* `CommandLine.execute`: what an invocation says, tells the log and keeps.
* `Outcome.through`: what becomes of that when not all of it can be said.
* `Invocation.origin`, `Invocation.paths`: the files that decide it.
* `CommandLine.run`: the same for arguments, which may be at fault.
* `CommandLine.runIn`: a run on a file tree.
* `Outcome.stderr`: what arrives on standard error, the log included.
-/

namespace Traceback.CommandLine
set_option autoImplicit false

/-! ## Records -/

/-- Why a record cannot be shown. -/
inductive Refusal where
  | template (f : Template.Fault)
  | unreadable (record : Text) (f : FileFault)
  | notFile (record : Text)
  /-- What was read from `origin` is not UTF-8. -/
  | notText (origin : Text)
  | invalid (record : Text) (f : Json.Fault)

def Refusal.message : Refusal → Text
  | template f => f.message
  | unreadable record f => "reading ".toList ++ record ++ ": ".toList ++ f.message
  | notFile record => record ++ " is not a file".toList
  | notText origin => "reading ".toList ++ origin ++ ": stream did not contain valid UTF-8".toList
  | invalid record f => "invalid exception record ".toList ++ record ++ ": ".toList ++ f.message

/-- Stands for the record on standard input. -/
def inputName : Text := ['-']

/-- The text of a record. -/
def recordText (d : Disk) (input : Bytes) (record : Text) : Except Refusal Text :=
  let decoded (origin : Text) (content : Bytes) : Except Refusal Text :=
    match Utf8.decode? content with
    | none => .error (.notText origin)
    | some t => .ok t
  if record = inputName then decoded "stdin".toList input
  else
    match d.isFile record with
    | .error f => .error (.unreadable record f)
    | .ok false => .error (.notFile record)
    | .ok true =>
      match d.read record with
      | .error f => .error (.unreadable record f)
      | .ok content => decoded record content

def record (d : Disk) (input : Bytes) (name : Text) : Except Refusal Exception :=
  match recordText d input name with
  | .error r => .error r
  | .ok t =>
    match Exception.ofJson t with
    | .error f => .error (.invalid name f)
    | .ok e => .ok e

/-! ## Outcomes -/

structure Outcome where
  status : UInt32
  /-- What is said on standard output. -/
  output : Text := []
  /-- What is said on standard error, the log apart. -/
  errors : Text := []
  /-- A report to keep, and the path of its store. -/
  kept : Option (Text × Report) := none
  /-- What the log is told before anything is said, and after. -/
  events : List Event := []
  closing : List Event := []

def success : UInt32 := 0
def failure : UInt32 := 1
def misused : UInt32 := 2

/-- The program was stopped, which is reported in words that are not its own. -/
def stopped : UInt32 := 101

def line (t : Text) : Text := t ++ ['\n']

def refused (r : Refusal) : Outcome := { status := failure, errors := line ("error: ".toList ++ r.message) }

/-- The path of the store that an invocation uses. -/
def Invocation.store (i : Invocation) (standardStore : Text) : Text := i.options.store.getD standardStore

/-- What the log is told before a report is shown that was made for it. -/
def handling (r : Report) : List Event :=
  .activated :: r.restating ++ [.handling r.error.category.name r.error.rule]

/-- What the log is told of the report that was kept last, as it is shown. -/
def recalling (d : Disk) (store : Text) (m : Formatter) : List Event :=
  match Store.load d store with
  | .ok r => r.showing d m 0
  | .error .missing => []
  | .error f => [.unloaded store f.message]

/-- An exception is shown as one that nothing has caught, so rendering never counts as success. -/
def execute (d : Disk) (standardStore : Text) (input : Bytes) (i : Invocation) : Outcome :=
  match i.options.settings with
  | .error f => refused (.template f)
  | .ok settings =>
    let m : Formatter := ⟨settings, d.line, d.resolve, d.directory⟩
    let store := i.store standardStore
    match i.task with
    | .last =>
      { status := success, output := line (Store.lastTrace d store m), events := recalling d store m }
    | .render name =>
      match record d input name with
      | .error r => refused r
      | .ok e =>
        let r := Report.ofException .builtin e
        { status := failure
          errors := line (r.display m)
          kept := some (store, r)
          events := handling r ++ r.showing d m settings.limit }

/-! ## Streams -/

/-- Where a program writes. -/
structure Streams where
  output : Writer := .steady
  errors : Writer := .steady

/-- The outcome after the attempts to say it. An exception that cannot be shown is not kept, which the log is told;
when anything else cannot be said the program is stopped. -/
def Outcome.settled (o : Outcome) (output errors : Except FileFault Unit) : Outcome :=
  match output, errors, o.kept with
  | .error _, _, _ => { o with status := stopped, kept := none }
  | .ok (), .ok (), _ => o
  | .ok (), .error f, some _ => { o with kept := none, closing := [.unwritten f.message] }
  | .ok (), .error _, none => { o with status := stopped }

/-- The outcome as it arrives on these streams. -/
def Outcome.through (o : Outcome) (s : Streams) : Outcome :=
  let (output, outputResult) := s.output.say o.output
  let (errors, errorsResult) := s.errors.say o.errors
  { o.settled outputResult errorsResult with output, errors }

/-- What the log is told of keeping a report. -/
def keeping (store : Text) : Except FileFault Unit → Event
  | .ok () => .saved store
  | .error f => .unsaved store (StoreFault.files f).message

/-- All that arrives on standard error. -/
def Outcome.stderr (o : Outcome) (g : Log) (most : LogLevel) : Text :=
  g.lines most 0 o.events ++ o.errors ++ g.lines most o.events.length o.closing

/-! ## What an invocation reads -/

/-- The path at which an invocation finds what it shows. -/
def Invocation.origin (i : Invocation) (standardStore : Text) : Text :=
  match i.task with
  | .last => i.store standardStore
  | .render name => name

/-- The report that an invocation shows, if there is one. -/
def Invocation.subject? (i : Invocation) (d : Disk) (standardStore : Text) (input : Bytes) : Option Report :=
  match i.task with
  | .last => (Store.load d (i.store standardStore)).toOption
  | .render name => (record d input name).toOption.map (Report.ofException .builtin)

/-- The paths that matter for showing a report. -/
def Invocation.paths (i : Invocation) (r : Report) : List Text :=
  (i.options.boundary.toList ++ r.history.flatMap fun (error, _) => error.frames.map (·.file)).eraseDups

/-! ## Runs -/

def programName : Text := "tinyerr".toList

/-- The name of the program, or of one of its commands. -/
def fullName : Option Command → Text
  | none => programName
  | some c => programName ++ '-' :: c.name.toList

def usage : Text := "usage: tinyerr [OPTIONS] (render RECORD | last)".toList

def Stop.outcome : Stop → Outcome
  | .misuse => { status := misused, errors := line usage }
  | .version c => { status := success, output := line (fullName c ++ " 0.1.0".toList) }
  | .help => { status := success, output := line usage }

/-- A stop is final, whether it can be spoken of or not. -/
def run (d : Disk) (standardStore : Text) (input : Bytes) (arguments : List Text) (s : Streams := {}) : Outcome :=
  match Invocation.ofArguments arguments with
  | .error stop => stop.outcome
  | .ok i => (execute d standardStore input i).through s

/-- A run on a file tree; only the log is told when a report cannot be kept. -/
def runIn (t : FileTree) (standardStore : Text) (input : Bytes) (arguments : List Text) (s : Streams := {}) :
    Outcome × FileTree :=
  let o := run t.disk standardStore input arguments s
  match o.kept with
  | none => (o, t)
  | some (store, r) =>
    let (t, result) := Store.save t store r
    ({ o with closing := [keeping store result] }, t)

end Traceback.CommandLine
