import Traceback.Pattern.Basic

/-! # Written patterns

The notation of patterns: a backslash before a punctuation mark for the mark itself, `\d`, `\w`, `\S` and a
dot for sets of characters, square brackets for sets by listing, a bar between alternatives, a question mark
for what may be left out, a star or a plus for repeated characters, with a question mark for as few as
possible, and round brackets for groups, named as in `(?P<name>…)`.

* `Pattern.read`: the pattern that a text denotes, if it denotes one.
-/

namespace Traceback.Pattern
set_option autoImplicit false

/-- The set that a letter after a backslash denotes; any mark denotes itself. -/
def escaped? (c : Char) : Option CharSet :=
  if c = 'd' then some .digit
  else if c = 'w' then some .word
  else if c = 'S' then some .visible
  else if c.isAlphanum then none
  else some (.exactly c)

/-- The characters up to a closing bracket, and what follows it. -/
def listed : Text → Option (Text × Text)
  | [] => none
  | ']' :: rest => some ([], rest)
  | '\\' :: c :: rest => (listed rest).map fun (cs, after) => (c :: cs, after)
  | c :: rest => (listed rest).map fun (cs, after) => (c :: cs, after)

/-- One set of characters at the front, and what follows it. -/
def charSet? : Text → Option (CharSet × Text)
  | '.' :: rest => some (.any, rest)
  | '\\' :: c :: rest => (escaped? c).map fun s => (s, rest)
  | '[' :: '^' :: rest => (listed rest).map fun (cs, after) => (.noneOf cs, after)
  | '[' :: rest => (listed rest).map fun (cs, after) => (.oneOf cs, after)
  | c :: rest =>
    if ['\\', '(', ')', '|', '?', '*', '+', '^', '$', '{', '}'].contains c then none else some (.exactly c, rest)
  | [] => none

/-- A set with the repetition that follows it. -/
def repeated (s : CharSet) : Text → Pattern × Text
  | '*' :: '?' :: rest => (many false 0 s, rest)
  | '*' :: rest => (many true 0 s, rest)
  | '+' :: '?' :: rest => (many false 1 s, rest)
  | '+' :: rest => (many true 1 s, rest)
  | '?' :: rest => (optional (one s), rest)
  | rest => (one s, rest)

/-- How a group is opened after its bracket: the name, if any, and what follows. -/
def groupHead (t : Text) : Option (Option Text × Text) :=
  match t with
  | '?' :: ':' :: rest => some (none, rest)
  | '?' :: 'P' :: '<' :: rest =>
    let name := rest.takeWhile (· != '>')
    match rest.drop name.length with
    | _ :: after => if name.isEmpty then none else some (some name, after)
    | [] => none
  | '?' :: _ => none
  | rest => some (none, rest)

mutual

/-- Alternatives, up to the end or a closing bracket. -/
def alternatives : Nat → Text → Option (Pattern × Text)
  | 0, _ => none
  | n + 1, t =>
    match sequence n t with
    | none => none
    | some (p, '|' :: rest) => (alternatives n rest).map fun (q, after) => (alt p q, after)
    | some (p, rest) => some (p, rest)

def sequence : Nat → Text → Option (Pattern × Text)
  | 0, _ => none
  | n + 1, t =>
    match t with
    | [] => some (nothing, [])
    | ')' :: rest => some (nothing, ')' :: rest)
    | '|' :: rest => some (nothing, '|' :: rest)
    | '(' :: rest =>
      match groupHead rest with
      | none => none
      | some (name, inner) =>
        match alternatives n inner with
        | some (p, ')' :: after) =>
          let p := match name with
            | some name => named name p
            | none => p
          match after with
          | '?' :: more => followed n (optional p) more
          | more => followed n p more
        | _ => none
    | t =>
      match charSet? t with
      | none => none
      | some (s, rest) =>
        let (p, after) := repeated s rest
        followed n p after

/-- The sequence that `p` begins. -/
def followed : Nat → Pattern → Text → Option (Pattern × Text)
  | 0, _, _ => none
  | n + 1, p, t =>
    (sequence n t).map fun (q, after) => (if q = nothing then p else seq p q, after)

end

/-- The pattern that the whole text denotes; every two calls read at least one character. -/
def read (t : Text) : Option Pattern :=
  match alternatives (3 * t.length + 3) t with
  | some (p, []) => some p
  | _ => none

end Traceback.Pattern
