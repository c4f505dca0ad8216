import Traceback.Text.Basic

/-! # Tokens of source code

* `Lexeme`: what a token is.
* `Token`: a lexeme with the part of the text it was read from.
* `keywords`, `signs`: the reserved words, and the operators and delimiters that are not brackets.
-/

namespace Traceback.Code
set_option autoImplicit false

inductive Bracket where
  | round | square | curly
  deriving DecidableEq, Repr

/-- What a string literal holds: text, bytes, or text with expressions in it, of two sorts. -/
inductive Flavour where
  | text | bytes | formatted | template
  deriving DecidableEq, Repr

/-- Whether expressions in braces may stand in the literal. -/
def Flavour.holdsExpressions : Flavour → Bool
  | .text | .bytes => false
  | .formatted | .template => true

inductive Lexeme where
  | name (spelling : Text)
  | keyword (word : String)
  | number
  | string (flavour : Flavour)
  /-- The opening quotes of a string that holds expressions. -/
  | stringStart (flavour : Flavour)
  /-- A stretch of such a string between two expressions. -/
  | stringPart
  | stringEnd
  | opening (b : Bracket)
  | closing (b : Bracket)
  | sign (spelling : String)
  /-- The end of a logical line. -/
  | lineEnd
  | textEnd
  deriving DecidableEq, Repr

/-- `start` and `stop` count characters; `stop` is the first one after the token. -/
structure Token where
  lexeme : Lexeme
  start : Nat
  stop : Nat
  deriving DecidableEq, Repr

def keywords : List String :=
  ["False", "None", "True", "and", "as", "assert", "async", "await", "break", "class", "continue", "def", "del",
    "elif", "else", "except", "finally", "for", "from", "global", "if", "import", "in", "is", "lambda", "nonlocal",
    "not", "or", "pass", "raise", "return", "try", "while", "with", "yield"]

/-- The keyword or the name that an identifier is. -/
def wordLexeme (spelling : Text) : Lexeme :=
  match keywords.find? fun word => word.toList = spelling with
  | some word => .keyword word
  | none => .name spelling

/-- Longer signs stand before those that they begin with. -/
def signs : List String :=
  ["**=", "//=", ">>=", "<<=", "...", "**", "//", ">>", "<<", "<=", ">=", "==", "!=", "->", "+=", "-=", "*=",
    "/=", "%=", "&=", "|=", "^=", "@=", ":=", "+", "-", "*", "/", "%", "@", "&", "|", "^", "~", "<", ">", ",", ":",
    ";", ".", "=", "!"]

/-- The longest sign that the text begins with, and what follows it. -/
def sign? (t : Text) : Option (String × Text) :=
  signs.findSome? fun s => (Text.dropPrefix? s.toList t).map fun rest => (s, rest)

def bracket? : Char → Option Lexeme
  | '(' => some (.opening .round)
  | '[' => some (.opening .square)
  | '{' => some (.opening .curly)
  | ')' => some (.closing .round)
  | ']' => some (.closing .square)
  | '}' => some (.closing .curly)
  | _ => none

end Traceback.Code
