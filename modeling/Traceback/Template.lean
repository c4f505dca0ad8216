import Traceback.Text.Utf8

/-! # Templates of location lines

A template is text with fields in braces; a brace that is text is written twice.

* `Field`: what may stand between braces.
* `Template.items`: the items of a template text, or the first fault in it.
* `Template.gathered`: the same with neighbouring characters put together.
* `Template.render`: the text with every field replaced.
-/

namespace Traceback
set_option autoImplicit false

/-! ## Fields -/

/-- What a location line can say about a frame. -/
inductive Field where
  | file | name | line | endLine | column | endColumn
  deriving DecidableEq, Repr

namespace Field

def all : List Field := [file, name, line, endLine, column, endColumn]

def label : Field → String
  | file => "file"
  | name => "name"
  | line => "lineno"
  | endLine => "end_lineno"
  | column => "colno"
  | endColumn => "end_colno"

def spelling (f : Field) : Text := f.label.toList

def ofSpelling? (t : Text) : Option Field := all.find? fun f => f.spelling = t

end Field

/-! ## Items -/

namespace Template

/-- One character of output, or a field. -/
inductive Item where
  | char (c : Char)
  | field (f : Field)
  deriving DecidableEq, Repr

/-- What makes a text no template; positions count bytes. -/
inductive Fault where
  | unknownField (name : Text)
  | unclosed (position : Nat)
  | unmatched (position : Nat)
  deriving DecidableEq, Repr

def Fault.message : Fault → Text
  | .unknownField name =>
    "unknown placeholder \x7b".toList ++ name ++ "\x7d in frame template, expected one of ".toList ++
      Text.joined [' '] (Field.all.map fun f => '{' :: f.spelling ++ ['}'])
  | .unclosed position =>
    "unclosed placeholder at position ".toList ++ Text.ofNat position ++ " in frame template".toList
  | .unmatched position =>
    "unmatched '\x7d' at position ".toList ++ Text.ofNat position ++ " in frame template".toList

/-- The text up to the first closing brace and what follows that brace. -/
def untilBrace : Text → Option (Text × Text)
  | [] => none
  | c :: rest =>
    if c = '}' then some ([], rest)
    else (untilBrace rest).map fun (name, after) => (c :: name, after)

theorem untilBrace_length : ∀ {t name after : Text}, untilBrace t = some (name, after) →
    after.length < t.length
  | c :: rest, name, after, h => by
    unfold untilBrace at h
    split at h
    · simp only [Option.some.injEq, Prod.mk.injEq] at h
      simp [← h.2]
    · rw [Option.map_eq_some_iff] at h
      obtain ⟨⟨n, a⟩, hrest, heq⟩ := h
      simp only [Prod.mk.injEq] at heq
      have := untilBrace_length hrest
      simp only [List.length_cons, ← heq.2]
      omega

/-- The items of a text that begins `position` bytes into the template. -/
def items (position : Nat) : Text → Except Fault (List Item)
  | [] => .ok []
  | '{' :: '{' :: rest => (items (position + 2) rest).map (.char '{' :: ·)
  | '}' :: '}' :: rest => (items (position + 2) rest).map (.char '}' :: ·)
  | '{' :: rest =>
    match _h : untilBrace rest with
    | none => .error (.unclosed position)
    | some (name, after) =>
      match Field.ofSpelling? name with
      | none => .error (.unknownField name)
      | some f => (items (position + 2 + (Utf8.encode name).length) after).map (.field f :: ·)
  | '}' :: _ => .error (.unmatched position)
  | c :: rest => (items (position + (Utf8.encodeChar c).length) rest).map (.char c :: ·)
termination_by t => t.length
decreasing_by
  all_goals simp only [List.length_cons]
  · omega
  · omega
  · have := untilBrace_length _h
    omega
  · omega

/-! ## Segments -/

inductive Segment where
  | text (t : Text)
  | field (f : Field)
  deriving DecidableEq, Repr

/-- Characters between two fields form one segment. -/
def gathered : List Item → List Segment
  | [] => []
  | .field f :: rest => .field f :: gathered rest
  | .char c :: rest =>
    match gathered rest with
    | .text t :: others => .text (c :: t) :: others
    | others => .text [c] :: others

end Template

/-- A template with the text it was written as. -/
structure Template where
  source : Text
  segments : List Template.Segment
  deriving DecidableEq, Repr

namespace Template

def read (source : Text) : Except Fault Template :=
  (items 0 source).map fun found => ⟨source, gathered found⟩

/-- The template's text, `value` giving that of each field. -/
def render (t : Template) (value : Field → Text) : Text :=
  t.segments.flatMap fun
    | .text s => s
    | .field f => value f

/-- The fields in the order in which they are asked for. -/
def fields (t : Template) : List Field :=
  t.segments.filterMap fun
    | .text _ => none
    | .field f => some f

/-- File, line and scope: `FILE:LINE in SCOPE`. -/
def standard : Template :=
  ⟨"\x7bfile\x7d:\x7blineno\x7d in \x7bname\x7d".toList,
    [.field .file, .text [':'], .field .line, .text " in ".toList, .field .name]⟩

end Template
end Traceback
