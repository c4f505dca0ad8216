import Traceback.Code.Literal
import Traceback.Unicode.Identifier

/-! # From text to tokens

A scanner stands at a position of the text and takes one token at a time. Blanks, comments, line ends
inside brackets and lines without code separate tokens and are none. Inside a string that holds expressions
the scanner is either in the string's text or, between braces, among tokens again; what follows a colon
between the braces is the string's text once more, the format of the value.

* `Scanner`: where scanning stands.
* `Scanner.step`: one token, or one stretch that holds none.
* `tokens`: all tokens of a text; `none` when some part of it is no token or a line is indented.
-/

namespace Traceback.Code
set_option autoImplicit false

/-! ## State -/

/-- A string with expressions whose end has not been reached: how many brackets were open before it, and
how many of its formats are being read. -/
structure OpenString where
  head : StringHead
  depth : Nat
  formats : Nat

structure Scanner where
  rest : Text
  position : Nat
  /-- Whether no token of the logical line has been read. -/
  fresh : Bool
  /-- How many brackets are open. -/
  depth : Nat
  /-- The open strings, innermost first. -/
  strings : List OpenString

namespace OpenString

/-- Brackets opened inside the string. -/
def opened (s : OpenString) (depth : Nat) : Nat := depth - s.depth

/-- Whether the scanner is among the tokens of an expression of the string. -/
def inExpression (s : OpenString) (depth : Nat) : Bool := s.formats < s.opened depth

def inFormat (s : OpenString) (depth : Nat) : Bool := 0 < s.formats && !s.inExpression depth

/-- Whether a colon begins a format here. -/
def colonBeginsFormat (s : OpenString) (depth : Nat) : Bool := s.opened depth - s.formats == 1

def endFormat (s : OpenString) (depth : Nat) : OpenString :=
  if s.inFormat depth then { s with formats := s.formats - 1 } else s

end OpenString

/-- `strings` with the innermost one changed. -/
def mapInnermost (change : OpenString → OpenString) : List OpenString → List OpenString
  | [] => []
  | s :: outer => change s :: outer

/-! ## Between tokens -/

def isLineEnd (c : Char) : Bool := c == '\n' || c == '\r'

/-- The text after blanks and continued line ends; a backslash must end its line and not the text. -/
def skipBlanks : Text → Option Text
  | ' ' :: rest => skipBlanks rest
  | '\t' :: rest => skipBlanks rest
  | '\x0c' :: rest => skipBlanks rest
  | '\\' :: '\r' :: '\n' :: rest => if rest.isEmpty then none else skipBlanks rest
  | '\\' :: '\r' :: rest => if rest.isEmpty then none else skipBlanks rest
  | '\\' :: '\n' :: rest => if rest.isEmpty then none else skipBlanks rest
  | '\\' :: _ => none
  | rest => some rest

/-- Whether the line is indented, and the text after its indentation. A form feed begins the line anew; of
a line continued by a backslash the blanks before the backslash count as well. -/
def indentation (continued indented : Bool) : Text → Option (Bool × Text)
  | ' ' :: rest => indentation continued true rest
  | '\t' :: rest => indentation continued true rest
  | '\x0c' :: rest => indentation continued false rest
  | '\\' :: '\r' :: '\n' :: rest =>
    if rest.isEmpty then none else indentation (continued || indented) indented rest
  | '\\' :: '\r' :: rest => if rest.isEmpty then none else indentation (continued || indented) indented rest
  | '\\' :: '\n' :: rest => if rest.isEmpty then none else indentation (continued || indented) indented rest
  | '\\' :: _ => none
  | rest => some (continued || indented, rest)

/-- Whether a line that goes on like this holds no code. -/
def holdsNoCode : Text → Bool
  | [] => true
  | c :: _ => isLineEnd c || c == '#'

/-- The text before the next token on this line; `none` when a line with code is indented. -/
def beforeToken (fresh : Bool) (t : Text) : Option Text :=
  if fresh then
    match indentation false false t with
    | none => none
    | some (indented, rest) => if indented && !holdsNoCode rest then none else some rest
  else skipBlanks t

/-! ## The text of strings with expressions -/

/-- The stretch of text up to an expression, a closing brace or the closing quotes, and what follows it.
A brace written twice stands for itself outside formats. `named` holds inside the braces of an escape. -/
def stringText (s : StringHead) (inFormat : Bool) : (named : Bool) → Text → Option (Text × Text)
  | _, [] => none
  | named, '\\' :: rest =>
    match rest with
    | [] => none
    | '{' :: after => prepend ['\\'] (stringText s inFormat named ('{' :: after))
    | '}' :: after => prepend ['\\'] (stringText s inFormat named ('}' :: after))
    | 'N' :: '{' :: after =>
      if s.raw then prepend ['\\', 'N'] (stringText s inFormat named ('{' :: after))
      else prepend ['\\', 'N', '{'] (stringText s inFormat true after)
    | '\r' :: '\n' :: after => prepend ['\\', '\r', '\n'] (stringText s inFormat named after)
    | c :: after => prepend ['\\', c] (stringText s inFormat named after)
  | named, '{' :: rest =>
    match rest with
    | '{' :: after => if inFormat then some ([], '{' :: rest) else prepend ['{'] (stringText s inFormat named after)
    | _ => some ([], '{' :: rest)
  | named, '}' :: rest =>
    if named then prepend ['}'] (stringText s inFormat false rest)
    else
      match rest with
      | '}' :: after =>
        if inFormat then some ([], '}' :: rest) else prepend ['}'] (stringText s inFormat named after)
      | _ => some ([], '}' :: rest)
  | named, c :: rest =>
    if !s.triple && isLineEnd c then none
    else if c = s.quote ∧ (s.triple = false ∨ rest.take 2 = [c, c]) then some ([], c :: rest)
    else prepend [c] (stringText s inFormat named rest)
termination_by _ t => t.length

/-- The text after the quotes that close the string, when they stand here. -/
def closingQuotes? (s : StringHead) (t : Text) : Option Text :=
  Text.dropPrefix? (List.replicate (if s.triple then 3 else 1) s.quote) t

/-! ## Tokens -/

namespace Scanner

/-- The scanner at `rest`, a later part of its text. -/
def moveTo (s : Scanner) (rest : Text) : Scanner :=
  { s with rest := rest, position := s.position + (s.rest.length - rest.length) }

/-- A token from here up to `rest`. -/
def take (s : Scanner) (lexeme : Lexeme) (rest : Text) : Option (List Token × Scanner) :=
  let after := { s.moveTo rest with fresh := false }
  some ([⟨lexeme, s.position, after.position⟩], after)

/-- The end of a line: a token when it ends a logical line. -/
def takeLineEnd (s : Scanner) (rest : Text) : Option (List Token × Scanner) :=
  let after := s.moveTo rest
  if s.depth = 0 ∧ s.fresh = false then
    some ([⟨.lineEnd, s.position, after.position⟩], { after with fresh := true })
  else some ([], { after with strings := mapInnermost (·.endFormat s.depth) after.strings })

def takeString (s : Scanner) (head : StringHead) (inner : Text) : Option (List Token × Scanner) :=
  if head.flavour.holdsExpressions then
    let opened : OpenString := ⟨head, s.depth, 0⟩
    { s with strings := opened :: s.strings }.take (.stringStart head.flavour) inner
  else
    match quoted head inner with
    | none => none
    | some (contents, rest) =>
      if contentsValid head contents then s.take (.string head.flavour) rest else none

def takeBracket (s : Scanner) (lexeme : Lexeme) (rest : Text) : Option (List Token × Scanner) :=
  match lexeme with
  | .opening _ => { s with depth := s.depth + 1 }.take lexeme rest
  | .closing .curly =>
    if s.strings.head?.any (·.depth == s.depth) then none
    else
      { s with depth := s.depth - 1, strings := mapInnermost (·.endFormat s.depth) s.strings }.take lexeme rest
  | _ => { s with depth := s.depth - 1 }.take lexeme rest

def takeSign (s : Scanner) : Option (List Token × Scanner) :=
  match s.rest with
  | ':' :: after =>
    if s.strings.head?.any (·.colonBeginsFormat s.depth) then
      { s with strings := mapInnermost (fun o => { o with formats := o.formats + 1 }) s.strings }.take
        (.sign ":") after
    else
      match after with
      | '=' :: rest => s.take (.sign ":=") rest
      | rest => s.take (.sign ":") rest
  | t =>
    match sign? t with
    | some (spelling, rest) => s.take (.sign spelling) rest
    | none => none

def isWordStart (c : Char) : Bool :=
  if c.toNat < 128 then c.isAlpha || c == '_' else Unicode.identifierStart.mem c

def isWordPart (c : Char) : Bool :=
  if c.toNat < 128 then c.isAlphanum || c == '_' else Unicode.identifierContinue.mem c

/-- A token that begins with the character `c`, no blank, with which the rest begins. -/
def takeToken (s : Scanner) (c : Char) (after : Text) : Option (List Token × Scanner) :=
  if isLineEnd c then
    match c, after with
    | '\r', '\n' :: rest => s.takeLineEnd rest
    | _, rest => s.takeLineEnd rest
  else if c = '#' then some ([], s.moveTo (after.dropWhile fun d => !isLineEnd d))
  else
    match stringHead? s.rest with
    | some (head, inner) => s.takeString head inner
    | none =>
      if isWordStart c then
        s.take (wordLexeme (s.rest.takeWhile isWordPart)) (s.rest.dropWhile isWordPart)
      else if startsNumber s.rest then (number s.rest).bind (s.take .number)
      else
        match bracket? c with
        | some lexeme => s.takeBracket lexeme after
        | none => s.takeSign

/-- The end of the text: all brackets are closed, and a line begun ends here. -/
def finish (s : Scanner) : Option (List Token) :=
  if s.depth = 0 ∧ s.strings.isEmpty = true then
    let stop : Token := ⟨.textEnd, s.position, s.position⟩
    some (if s.fresh then [stop] else [⟨.lineEnd, s.position, s.position⟩, stop])
  else none

/-- A token or a separator, when the scanner is not in the text of a string. -/
def stepCode (s : Scanner) : Option (List Token × Scanner) :=
  match beforeToken s.fresh s.rest with
  | none => none
  | some rest =>
    match rest with
    | [] => some ([], s.moveTo [])
    | c :: after => (s.moveTo rest).takeToken c after

def step (s : Scanner) : Option (List Token × Scanner) :=
  match s.strings with
  | [] => s.stepCode
  | o :: outer =>
    if o.inExpression s.depth then s.stepCode
    else
      match closingQuotes? o.head s.rest with
      | some rest => { s with strings := outer }.take .stringEnd rest
      | none =>
        match stringText o.head (o.inFormat s.depth) false s.rest with
        | none => none
        | some ([], _) => s.stepCode
        | some (contents, rest) =>
          if o.head.raw || escapesValid true contents then s.take .stringPart rest else none

/-- The tokens from here on, found in at most `fuel` steps. -/
def run : (fuel : Nat) → Scanner → Option (List Token)
  | 0, _ => none
  | fuel + 1, s =>
    if s.rest.isEmpty then s.finish
    else
      match s.step with
      | none => none
      | some (found, next) => (run fuel next).map (found ++ ·)

end Scanner

/-- The tokens of a text; each step but the last takes at least one character. -/
def tokens (t : Text) : Option (List Token) :=
  match t with
  | '\uFEFF' :: rest => Scanner.run (t.length + 1) ⟨rest, 1, true, 0, []⟩
  | _ => Scanner.run (t.length + 1) ⟨t, 0, true, 0, []⟩

end Traceback.Code
