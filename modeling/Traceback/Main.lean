import Traceback.CommandLine

/-! # The program

Looks at the files that an invocation needs, runs it on what was found, writes what it says and what the log is
told, and keeps its report.
-/

namespace Traceback.Program
set_option autoImplicit false

/-! ## Faults -/

/-- The words of a fault begin with a capital. -/
def capitalized : Text → Text
  | [] => []
  | c :: rest => c.toUpper :: rest

/-- The code of a fault may be given with its sign changed. -/
def faultOfCode (code : UInt32) (words : String) : FileFault :=
  match code.toInt32.toInt.natAbs with
  | 2 => .notFound
  | 17 => .alreadyExists
  | 20 => .notDirectory
  | 21 => .isDirectory
  | 36 => .nameTooLong
  | 40 => .tooManyLinks
  | code => .other (capitalized words.toList) code

def faultOf : IO.Error → FileFault
  | .alreadyExists _ code words | .noFileOrDirectory _ code words | .interrupted _ code words
  | .invalidArgument _ code words | .permissionDenied _ code words | .resourceExhausted _ code words
  | .inappropriateType _ code words | .noSuchThing _ code words | .otherError code words
  | .resourceBusy code words | .resourceVanished code words | .unsupportedOperation code words
  | .hardwareFault code words | .unsatisfiedConstraints code words | .illegalOperation code words
  | .protocolError code words | .timeExpired code words => faultOfCode code words
  | .unexpectedEof => .other "unexpected end of file".toList 0
  | .userError words => .other words.toList 0

/-! ## Looking -/

/-- The answer of the system, or its fault. -/
def asking {α : Type} (action : IO α) : IO (Except FileFault α) := do
  match ← action.toBaseIO with
  | .ok a => return .ok a
  | .error e => return .error (faultOf e)

/-- The fault of the second action is that of the first when both fail. -/
def alike {α β : Type} (first : Except FileFault α) (second : Except FileFault β) : Except FileFault β :=
  match first, second with
  | .error f, .error _ => .error f
  | _, r => r

def lookAt (directory path : Text) : IO Finding := do
  if path.contains '\x00' then
    return ⟨.error .nulInName, .error .nulInName, Path.absolute directory path⟩
  let name := String.ofList path
  let content ← asking do return (← IO.FS.readBinFile name).toList
  let isFile ← asking do return (← (← IO.FS.realPath name).metadata).type == .file
  let resolved ← asking do return (← IO.FS.realPath name).toString.toList
  return ⟨content, alike content isFile, resolved.toOption.getD (Path.absolute directory path)⟩

def lookAtAll (directory : Text) (paths : List Text) : IO Snapshot := do
  let findings ← paths.mapM fun path => do return (path, ← lookAt directory path)
  return ⟨findings, directory⟩

def surroundings : IO Store.Surroundings := do
  let cacheHome ← IO.getEnv "XDG_CACHE_HOME"
  let home ← IO.getEnv "HOME"
  let temporary ← IO.getEnv "TMPDIR"
  return ⟨cacheHome.map (·.toList), home.map (·.toList), (temporary.getD "/tmp").toList⟩

/-! ## The log -/

/-- The events that the surroundings ask for by the name of a level; other wishes are not understood here. -/
def askedFor (wish : String) : Option (Event → Bool) :=
  let upTo (most : LogLevel) (e : Event) : Bool := e.level.within most
  match wish.toLower with
  | "off" | "error" => some fun _ => false
  | "warn" | "info" => some (upTo .warning)
  | "debug" => some (upTo .debug)
  | "trace" => some (upTo .trace)
  | _ => none

def levelName : LogLevel → String
  | .warning => "WARN"
  | .debug => "DEBUG"
  | .trace => "TRACE"

def eventLine (e : Event) : Text :=
  let fields := e.fields.flatMap fun (name, value) => ' ' :: name.toList ++ '=' :: value
  CommandLine.line ((levelName e.level).toList ++ ' ' :: e.words.toList ++ fields)

def log : IO Log := do
  let wish ← IO.getEnv "TINYERR_LOG"
  return ⟨wish.bind askedFor, fun _ => eventLine⟩

/-! ## Running -/

def say (stream : IO.FS.Stream) (t : Text) : IO (Except FileFault Unit) :=
  if t.isEmpty then return .ok () else asking do
    stream.putStr (String.ofList t)
    stream.flush

def keep (store : Text) (r : Report) : IO (Except FileFault Unit) :=
  let parent := (Path.parent? store).getD []
  asking do
    if !parent.isEmpty then IO.FS.createDirAll (String.ofList parent)
    IO.FS.writeBinFile (String.ofList store) (ByteArray.mk (Record.encode r).toArray)

/-- What an invocation does with the files as they are. -/
def outcome (standardStore : Text) (i : CommandLine.Invocation) : IO CommandLine.Outcome := do
  let directory := (← IO.currentDir).toString.toList
  let input ←
    if i.task = .render CommandLine.inputName then pure (← (← IO.getStdin).readBinToEnd).toList else pure []
  let origin ← lookAtAll directory [i.origin standardStore, directory]
  let more ←
    match i.subject? origin.disk standardStore input with
    | none => pure []
    | some r => pure (← lookAtAll directory (i.paths r)).findings
  let whole : Snapshot := { origin with findings := origin.findings ++ more }
  return CommandLine.execute whole.disk standardStore input i

def perform (i : CommandLine.Invocation) : IO UInt32 := do
  let (stdout, stderr, g) := (← IO.getStdout, ← IO.getStderr, ← log)
  let tell (events : List Event) : IO Unit := do
    let _ ← say stderr (g.lines i.options.level 0 events)
  let o ← outcome (Store.standardPath (← surroundings)) i
  tell o.events
  let o := o.settled (← say stdout o.output) (← say stderr o.errors)
  let closing ←
    match o.kept with
    | none => pure o.closing
    | some (store, r) => pure [CommandLine.keeping store (← keep store r)]
  tell closing
  return o.status

end Traceback.Program

open Traceback Program in
def main (arguments : List String) : IO UInt32 := do
  match CommandLine.Invocation.ofArguments (arguments.map (·.toList)) with
  | .ok i => perform i
  | .error stop =>
    let _ ← say (← IO.getStdout) stop.outcome.output
    let _ ← say (← IO.getStderr) stop.outcome.errors
    return stop.outcome.status
