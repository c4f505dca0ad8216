import Traceback.Report
import Traceback.Store.Codec

/-! # Records

A report as bytes: a mark that tells what the bytes are, then the parts of the report in order.

* `Codec.report`: the codec of reports without the mark.
* `Record.encode`: the record of a report.
* `Record.decode`: the report of a record; what follows the record is ignored.
-/

namespace Traceback
set_option autoImplicit false

namespace Codec

def category : Codec Category :=
  (text.pair text.list).iso (fun p => ⟨p.1, p.2⟩) (fun c => (c.name, c.bases))

/-- Groups are read in any number; a name that comes again replaces the text. -/
def groups : Codec Groups := (text.pair text).list.iso Groups.ofPairs Groups.pairs

def frame : Codec Frame :=
  (text.pair (number.pair (number.option.pair (number.option.pair (number.option.pair
    (text.pair text.option)))))).iso
    (fun (file, line, endLine, column, endColumn, scope, source) =>
      { file, line, endLine, column, endColumn, scope, source })
    (fun f => (f.file, f.line, f.endLine, f.column, f.endColumn, f.scope, f.source))

def restated : Codec Restated :=
  (category.pair (text.pair (text.option.pair (groups.pair (text.pair frame.list))))).iso
    (fun (category, received, rule, groups, message, frames) =>
      { category, received, rule, groups, message, frames })
    (fun r => (r.category, r.received, r.rule, r.groups, r.message, r.frames))

/-! ## Links -/

/-- A link behind its tag: the error, the links of the error, and whether it hides its context. -/
def writeLink {α : Type} (c : Codec α) : Link α → Bytes
  | .absent => (tag .badOption).write false
  | .back error hidesContext cause context =>
    (tag .badOption).write true ++
      (c.write error ++ (writeLink c cause ++ (writeLink c context ++ bool.write hidesContext)))

mutual

/-- A link of at most `depth` levels. -/
def readLink {α : Type} (c : Codec α) : (depth : Nat) → Bytes → Except CodecFault (Link α × Bytes)
  | 0, _ => .error .endOfData
  | depth + 1, bytes =>
    match (tag .badOption).read bytes with
    | .error f => .error f
    | .ok (false, rest) => .ok (.absent, rest)
    | .ok (true, rest) =>
      match readLinked c depth rest with
      | .error f => .error f
      | .ok (l, rest) => .ok (l.link, rest)

def readLinked {α : Type} (c : Codec α) : (depth : Nat) → Bytes → Except CodecFault (Linked α × Bytes)
  | 0, _ => .error .endOfData
  | depth + 1, bytes =>
    match c.read bytes with
    | .error f => .error f
    | .ok (error, rest) =>
      match readLink c depth rest with
      | .error f => .error f
      | .ok (cause, rest) =>
        match readLink c depth rest with
        | .error f => .error f
        | .ok (context, rest) =>
          match bool.read rest with
          | .error f => .error f
          | .ok (hidesContext, rest) => .ok (⟨error, hidesContext, cause, context⟩, rest)

end

/-- Errors with their links; two levels of reading take at least one byte. -/
def linked {α : Type} (c : Codec α) : Codec (Linked α) where
  write l := c.write l.error ++ (writeLink c l.cause ++ (writeLink c l.context ++ bool.write l.hidesContext))
  read bytes := readLinked c (2 * bytes.length + 2) bytes

def report : Codec Report := linked restated

end Codec

/-! ## Records -/

/-- Why bytes are no record. -/
inductive RecordFault where
  /-- They do not begin with the mark. -/
  | badHeader
  | corrupt (f : CodecFault)
  deriving DecidableEq, Repr

def RecordFault.message : RecordFault → Text
  | badHeader => "not a trace record".toList
  | corrupt f => "trace record was truncated or corrupted: ".toList ++ f.message

namespace Record

/-- The name of the format and its version. -/
def mark : Bytes := Utf8.encode "TINYERR\x01".toList

def encode (r : Report) : Bytes := mark ++ Codec.report.write r

def decode (bytes : Bytes) : Except RecordFault Report :=
  match Text.dropPrefix? mark bytes with
  | none => .error .badHeader
  | some rest =>
    match Codec.report.read rest with
    | .error f => .error (.corrupt f)
    | .ok (r, _) => .ok r

end Record
end Traceback
