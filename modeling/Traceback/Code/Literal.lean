import Traceback.Code.Token

/-! # Literals in source code

Each function takes the text from where a literal begins, or from behind its opening quotes, and gives what
follows it; `none` stands for a literal that is malformed.

* `number`: integers in four bases, decimal fractions, imaginary numbers.
* `stringHead?`: the letters and the quote that open a string.
* `quoted`: the contents of a string up to its closing quotes.
* `escapesValid`: whether the escapes in the contents of a string denote something.
-/

namespace Traceback.Code
set_option autoImplicit false

/-! ## Numbers -/

def isDecimal (c : Char) : Bool := '0' ≤ c && c ≤ '9'

def isHex (c : Char) : Bool := isDecimal c || ('a' ≤ c && c ≤ 'f') || ('A' ≤ c && c ≤ 'F')

/-- The digits at the front; one underscore may stand before each of them. -/
def digits (isDigit : Char → Bool) : Text → Text × Text
  | [] => ([], [])
  | c :: rest =>
    if isDigit c then
      let (more, after) := digits isDigit rest
      (c :: more, after)
    else if c = '_' ∧ rest.head?.any isDigit = true then digits isDigit rest
    else ([], c :: rest)

/-- The digits of the base that a letter after a leading zero stands for. -/
def baseDigit? : Char → Option (Char → Bool)
  | 'x' | 'X' => some isHex
  | 'o' | 'O' => some fun c => '0' ≤ c && c ≤ '7'
  | 'b' | 'B' => some fun c => c == '0' || c == '1'
  | _ => none

/-- A fraction after the whole part; whether there is one, and what follows. -/
def fraction : Text → Option (Bool × Text)
  | '.' :: '_' :: _ => none
  | '.' :: rest => some (true, (digits isDecimal rest).2)
  | rest => some (false, rest)

/-- An exponent; whether there is one, and what follows. -/
def exponent : Text → Bool × Text
  | e :: s :: d :: rest =>
    if e = 'e' ∨ e = 'E' then
      if isDecimal s then (true, (digits isDecimal (s :: d :: rest)).2)
      else if (s = '+' ∨ s = '-') ∧ isDecimal d = true then (true, (digits isDecimal (d :: rest)).2)
      else (false, e :: s :: d :: rest)
    else (false, e :: s :: d :: rest)
  | [e, d] => if (e = 'e' ∨ e = 'E') ∧ isDecimal d = true then (true, []) else (false, [e, d])
  | rest => (false, rest)

/-- A number in base ten. An integer other than zero does not begin with the digit zero. -/
def decimal (t : Text) : Option Text :=
  let (whole, afterWhole) := digits isDecimal t
  match fraction afterWhole with
  | none => none
  | some (pointed, afterFraction) =>
    let (raised, rest) := exponent afterFraction
    match rest with
    | 'j' :: after | 'J' :: after => some after
    | after =>
      if !(pointed || raised) && whole.head? == some '0' && whole.any (· != '0') then none else some after

/-- The text after the number that `t` begins with. -/
def number : Text → Option Text
  | '0' :: letter :: rest =>
    match baseDigit? letter with
    | some isDigit =>
      let (found, after) := digits isDigit rest
      if found.isEmpty then none else some after
    | none => decimal ('0' :: letter :: rest)
  | t => decimal t

/-- Whether a number begins here. -/
def startsNumber : Text → Bool
  | '.' :: d :: _ => isDecimal d
  | d :: _ => isDecimal d
  | [] => false

/-! ## Strings -/

def isQuote (c : Char) : Bool := c == '\'' || c == '"'

/-- What the letters in front of a quote say: the flavour of the string and whether it is raw. -/
def flavour? (letters : Text) : Option (Flavour × Bool) :=
  match letters.map Char.toLower with
  | [] | ['u'] => some (.text, false)
  | ['r'] => some (.text, true)
  | ['b'] => some (.bytes, false)
  | ['b', 'r'] | ['r', 'b'] => some (.bytes, true)
  | ['f'] => some (.formatted, false)
  | ['f', 'r'] | ['r', 'f'] => some (.formatted, true)
  | ['t'] => some (.template, false)
  | ['t', 'r'] | ['r', 't'] => some (.template, true)
  | _ => none

/-- The opening of a string. -/
structure StringHead where
  flavour : Flavour
  raw : Bool
  quote : Char
  triple : Bool

/-- The opening of a string at the front of `t`, and what follows it. -/
def stringHead? (t : Text) : Option (StringHead × Text) :=
  let letters := (t.take 2).takeWhile fun c => !isQuote c
  match t.drop letters.length, flavour? letters with
  | q :: rest, some (flavour, raw) =>
    if isQuote q then
      match rest with
      | a :: b :: inner =>
        if a = q ∧ b = q then some (⟨flavour, raw, q, true⟩, inner)
        else some (⟨flavour, raw, q, false⟩, rest)
      | _ => some (⟨flavour, raw, q, false⟩, rest)
    else none
  | _, _ => none

/-- `first` in front of the contents found. -/
def prepend (first : Text) (found : Option (Text × Text)) : Option (Text × Text) :=
  found.map fun (contents, rest) => (first ++ contents, rest)

/-- Contents up to a closing quote on the same line, and what follows; a backslash protects what comes
after it, also the end of a line. -/
def quotedLine (q : Char) : Text → Option (Text × Text)
  | [] => none
  | '\\' :: '\r' :: '\n' :: rest => prepend ['\\', '\r', '\n'] (quotedLine q rest)
  | '\\' :: c :: rest => prepend ['\\', c] (quotedLine q rest)
  | c :: rest =>
    if c = q then some ([], rest)
    else if c = '\n' ∨ c = '\r' then none
    else prepend [c] (quotedLine q rest)

/-- Contents up to three closing quotes, and what follows. -/
def quotedBlock (q : Char) : Text → Option (Text × Text)
  | [] => none
  | '\\' :: c :: rest => prepend ['\\', c] (quotedBlock q rest)
  | c :: rest =>
    if c = q ∧ rest.take 2 = [q, q] then some ([], rest.drop 2)
    else prepend [c] (quotedBlock q rest)

def quoted (head : StringHead) (t : Text) : Option (Text × Text) :=
  if head.triple then quotedBlock head.quote t else quotedLine head.quote t

/-! ## Escapes -/

def hexValue (t : Text) : Nat :=
  t.foldl (fun n c =>
    let d := c.toNat
    16 * n + (if d < 58 then d - 48 else if d < 71 then d - 55 else d - 87)) 0

/-- The escape letters that a number of hexadecimal digits follows. -/
def escapeWidth? (wide : Bool) : Char → Option Nat
  | 'x' => some 2
  | 'u' => if wide then some 4 else none
  | 'U' => if wide then some 8 else none
  | _ => none

/-- A name of a character in braces. The catalogue of the names in use is not kept here: a name is told by the characters
that names are made of, so that one that no character bears is taken for a name too. -/
def namedEscape : Text → Bool
  | '{' :: rest =>
    let name := rest.takeWhile (· != '}')
    rest.length > name.length && !name.isEmpty && name.all fun c => c.isAlphanum || c == ' ' || c == '-'
  | _ => false

/-- Whether every escape in the contents of a string denotes a character. In bytes (`wide` false) only the
two-digit escapes have a meaning; a backslash before any other character stands for itself. -/
def escapesValid (wide : Bool) : Text → Bool
  | [] => true
  | '\\' :: c :: rest =>
    (match escapeWidth? wide c with
      | some n =>
        let code := rest.take n
        code.length == n && code.all isHex && hexValue code ≤ 0x10FFFF
      | none => !(wide && c == 'N') || namedEscape rest) && escapesValid wide rest
  | _ :: rest => escapesValid wide rest

/-- Whether a string without expressions may have these contents. -/
def contentsValid (head : StringHead) (contents : Text) : Bool :=
  match head.flavour with
  | .bytes => contents.all (fun c => c.toNat < 128) && (head.raw || escapesValid false contents)
  | _ => head.raw || escapesValid true contents

end Traceback.Code
