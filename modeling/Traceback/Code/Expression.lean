import Traceback.Code.Scan

/-! # Expressions

A parser by precedence for the expressions of the language, over tokens. Of an expression only what later
decisions need is kept: its place, what it is at the top, and whether it stood in brackets of its own.

* `Node`: an expression that has been read.
* `Context`: what the place of an expression allows besides plain expressions.
* `expressionList`: the entry; expressions with commas between them.

Every function takes fuel; `fuelFor` many suffices, because at most ten calls lie between two tokens.
-/

namespace Traceback.Code
set_option autoImplicit false

/-! ## Nodes -/

/-- What an expression is at the top. -/
inductive Shape where
  | name
  /-- An arithmetic or bitwise operation: where its left operand stops and its right one starts. -/
  | operation (left right : Nat)
  /-- A subscript: where the value before the bracket stops. -/
  | subscript (base : Nat)
  | starred
  /-- `bare` when no brackets of its own enclose it. -/
  | tuple (bare : Bool)
  | generator (bare : Bool)
  | lambda
  | named
  | conditional
  /-- A comparison, `and`, `or`, `not`. -/
  | logic
  | other
  deriving DecidableEq, Repr

structure Node where
  shape : Shape
  start : Nat
  stop : Nat
  /-- Whether brackets group it, or what it begins with. -/
  grouped : Bool := false
  /-- Whether values can be assigned to it. -/
  assignable : Bool := false
  deriving DecidableEq, Repr

def Node.bareStarred (e : Node) : Bool := e.shape == .starred && !e.grouped

/-! ## Contexts -/

/-- Which expressions may stand behind a star, if any. -/
inductive Starring where
  | refused | upToBitOr | conditional
  deriving DecidableEq, Repr

structure Context where
  star : Starring := .refused
  yields : Bool := false
  /-- Whether `in` ends the expression. -/
  endsAtIn : Bool := false

namespace Context

def plain : Context := {}
def element : Context := { star := .upToBitOr }
def argument : Context := { star := .conditional }
def grouping : Context := { star := .upToBitOr, yields := true }
def target : Context := { star := .conditional, endsAtIn := true }

end Context

/-! ## Precedence -/

namespace Level

def lowest : Nat := 0
def or : Nat := 1
def and : Nat := 2
def not : Nat := 3
def comparison : Nat := 4
def bitOr : Nat := 5
def bitXor : Nat := 6
def bitAnd : Nat := 7
def shift : Nat := 8
def sum : Nat := 9
def product : Nat := 10
def unary : Nat := 11
def power : Nat := 12
def await : Nat := 13

end Level

/-- An operator between two operands; `width` counts its tokens. -/
structure Operator where
  level : Nat
  width : Nat
  /-- Arithmetic or bitwise, not a comparison and not logical. -/
  computes : Bool

def signLevel? : String → Option (Nat × Bool)
  | "<" | ">" | "==" | "!=" | "<=" | ">=" => some (Level.comparison, false)
  | "|" => some (Level.bitOr, true)
  | "^" => some (Level.bitXor, true)
  | "&" => some (Level.bitAnd, true)
  | "<<" | ">>" => some (Level.shift, true)
  | "+" | "-" => some (Level.sum, true)
  | "*" | "/" | "//" | "%" | "@" => some (Level.product, true)
  | "**" => some (Level.power, true)
  | _ => none

/-- The operator that the next token, with the one after it, stands for. -/
def operator? : Lexeme → Lexeme → Option Operator
  | .keyword "or", _ => some ⟨Level.or, 1, false⟩
  | .keyword "and", _ => some ⟨Level.and, 1, false⟩
  | .keyword "in", _ => some ⟨Level.comparison, 1, false⟩
  | .keyword "is", .keyword "not" => some ⟨Level.comparison, 2, false⟩
  | .keyword "is", _ => some ⟨Level.comparison, 1, false⟩
  | .keyword "not", .keyword "in" => some ⟨Level.comparison, 2, false⟩
  | .sign s, _ => (signLevel? s).map fun (level, computes) => ⟨level, 1, computes⟩
  | _, _ => none

/-- Whether the operator binds less than its surroundings ask; powers group to the right. -/
def Operator.yieldsTo (op : Operator) (level : Nat) : Bool :=
  if op.level = Level.power then op.level < level else op.level ≤ level

/-! ## Reading tokens -/

/-- The tokens ahead, and where the last token read stops. -/
structure Cursor where
  ahead : List Token
  last : Nat

abbrev Parse := StateT Cursor Option

namespace Parse

def lexemeAt (ts : List Token) (i : Nat) : Lexeme := (ts[i]?.map (·.lexeme)).getD .textEnd

def peek : Parse Lexeme := do return lexemeAt (← get).ahead 0

def peekSecond : Parse Lexeme := do return lexemeAt (← get).ahead 1

/-- Where the next token starts. -/
def here : Parse Nat := do
  let c ← get
  return (c.ahead.head?.map (·.start)).getD c.last

def last : Parse Nat := do return (← get).last

def advance : Parse Unit := fun c =>
  match c.ahead with
  | [] => none
  | t :: ts => some ((), ⟨ts, t.stop⟩)

def accept (l : Lexeme) : Parse Bool := do
  if (← peek) = l then
    advance
    return true
  else return false

def expect (l : Lexeme) : Parse Unit := do
  if (← peek) = l then advance else failure

def require (condition : Bool) : Parse Unit := if condition then pure () else failure

/-- What has been read from `start` up to here. -/
def node (shape : Shape) (start : Nat) : Parse Node := do return { shape, start, stop := ← last }

def target (shape : Shape) (start : Nat) (assignable : Bool) : Parse Node := do
  return { shape, start, stop := ← last, assignable }
end Parse

def startsExpression : Lexeme → Bool
  | .name _ | .number | .string _ | .stringStart _ | .opening _ => true
  | .keyword word => ["None", "True", "False", "lambda", "await", "not", "yield"].contains word
  | .sign s => ["+", "-", "~", "*", "**", "..."].contains s
  | _ => false

def startsComprehension (l : Lexeme) : Bool := l == .keyword "for" || l == .keyword "async"

/-- Whether strings of these flavours may stand side by side: bytes and templates only among their own. -/
def joinable (flavours : List Flavour) : Bool :=
  (flavours.all (· == .bytes) || flavours.all (· != .bytes)) &&
    (flavours.all (· == .template) || flavours.all (· != .template))

/-! ## Parts of calls and functions -/

/-- The arguments of a call read so far. A name may be given twice; that this has no meaning is no matter of form. -/
structure ArgumentsSeen where
  count : Nat := 0
  keyword : Bool := false
  /-- Whether a mapping was unpacked. -/
  unpacked : Bool := false
  bareGenerator : Bool := false
  trailingComma : Bool := false

/-- A generator without brackets of its own must be the only argument. -/
def ArgumentsSeen.valid (a : ArgumentsSeen) : Bool := !a.bareGenerator || (a.count ≤ 1 && !a.trailingComma)

/-- The parameters of a function read so far. -/
structure ParametersSeen where
  any : Bool := false
  defaulted : Bool := false
  slash : Bool := false
  /-- A star on its own. -/
  star : Bool := false
  /-- Whether the star was the last that was read. -/
  starLast : Bool := false
  namedAfterStar : Bool := false
  rest : Bool := false
  keywordRest : Bool := false

open Parse

/-- One parameter that is not followed by a default, or the part of it before its default. -/
def parameterStart (seen : ParametersSeen) : Parse (ParametersSeen × Bool) := do
  require !seen.keywordRest
  match ← peek with
  | .sign "*" =>
    advance
    match ← peek with
    | .name _ =>
      advance
      require ((← peek) != .sign "=" && !seen.star && !seen.rest)
      return ({ seen with any := true, rest := true, starLast := false }, false)
    | _ =>
      require (!seen.star && !seen.rest)
      return ({ seen with star := true, starLast := true }, false)
  | .sign "**" =>
    advance
    match ← peek with
    | .name _ =>
      advance
      require ((← peek) != .sign "=" && !(seen.star && !seen.namedAfterStar))
      return ({ seen with any := true, keywordRest := true, starLast := false }, false)
    | _ => failure
  | .sign "/" =>
    advance
    require (seen.any && !seen.slash && !seen.star && !seen.rest)
    return ({ seen with slash := true, starLast := false }, false)
  | .name _ =>
    advance
    let defaulted := (← peek) == .sign "="
    require (defaulted || !seen.defaulted || seen.star || seen.rest)
    return ({ seen with
      any := true
      defaulted := seen.defaulted || defaulted
      namedAfterStar := seen.namedAfterStar || seen.star
      starLast := false }, defaulted)
  | _ => failure

def startsParameter : Lexeme → Bool
  | .name _ => true
  | .sign s => ["*", "**", "/"].contains s
  | _ => false

/-! ## The parser -/

mutual

/-- Expressions with commas between them. -/
def expressionList : Nat → Context → Parse Node
  | 0, _ => failure
  | n + 1, ctx => do
    let start ← here
    let first ← conditional n ctx
    if (← peek) = .sign "," then
      let assignable ← moreListed n ctx first.assignable
      target (.tuple true) start assignable
    else return first

def moreListed : Nat → Context → Bool → Parse Bool
  | 0, _, _ => failure
  | n + 1, ctx, assignable => do
    if ← accept (.sign ",") then
      if startsExpression (← peek) then
        let e ← conditional n ctx
        moreListed n ctx (assignable && e.assignable)
      else return assignable
    else return assignable

/-- Further elements between brackets, after the first one. -/
def moreElements : Nat → Bool → Parse Bool
  | 0, _ => failure
  | n + 1, assignable => do
    if ← accept (.sign ",") then
      if startsExpression (← peek) then
        let e ← named n .element
        moreElements n (assignable && e.assignable)
      else return assignable
    else return assignable

/-- An expression, or one that is given a name. -/
def named : Nat → Context → Parse Node
  | 0, _ => failure
  | n + 1, ctx => do
    let start ← here
    let e ← conditional n ctx
    if ← accept (.sign ":=") then
      require (e.shape == .name)
      let _ ← conditional n .plain
      node .named start
    else return e

def conditional : Nat → Context → Parse Node
  | 0, _ => failure
  | n + 1, ctx => do
    let start ← here
    if ← accept (.keyword "lambda") then
      if (← peek) != .sign ":" then parameters n {}
      expect (.sign ":")
      let _ ← conditional n .plain
      node .lambda start
    else
      let e ← operation n Level.lowest ctx
      if ← accept (.keyword "if") then
        let _ ← operation n Level.lowest .plain
        expect (.keyword "else")
        let _ ← conditional n .plain
        node .conditional start
      else return e

/-- Operands with operators between them that bind more than `level`. -/
def operation : Nat → Nat → Context → Parse Node
  | 0, _, _ => failure
  | n + 1, level, ctx => do
    let start ← here
    let left ← operand n level ctx
    moreOperands n level ctx start left

def moreOperands : Nat → Nat → Context → Nat → Node → Parse Node
  | 0, _, _, _, _ => failure
  | n + 1, level, ctx, start, left => do
    let next ← peek
    if next = .keyword "in" ∧ ctx.endsAtIn = true then return left
    else
      match operator? next (← peekSecond) with
      | none => return left
      | some op =>
        if op.yieldsTo level then return left
        else
          advance
          if op.width = 2 then advance
          let right ← operation n op.level ctx
          let shape := if op.computes then .operation left.stop right.start else .logic
          let e ← node shape start
          moreOperands n level ctx start { e with grouped := left.grouped }

def operand : Nat → Nat → Context → Parse Node
  | 0, _, _ => failure
  | n + 1, level, ctx => do
    let start ← here
    match ← peek with
    | .sign "+" | .sign "-" | .sign "~" =>
      require (level ≤ Level.unary || level == Level.power)
      advance
      let _ ← operation n Level.unary ctx
      node .other start
    | .keyword "not" =>
      require (level ≤ Level.not)
      advance
      let _ ← operation n Level.not ctx
      node .logic start
    | .sign "*" =>
      require (level == Level.lowest)
      advance
      match ctx.star with
      | .refused => failure
      | .conditional =>
        let e ← conditional n ctx
        target .starred start e.assignable
      | .upToBitOr =>
        let e ← upToBitOr n
        target .starred start e.assignable
    | .keyword "await" =>
      require (level < Level.await)
      advance
      let _ ← operation n Level.await .plain
      node .other start
    | .keyword "yield" =>
      require (level == Level.lowest && ctx.yields)
      advance
      if ← accept (.keyword "from") then
        let e ← expressionList n .plain
        require (e.shape != .tuple true)
      else if startsExpression (← peek) then
        let _ ← expressionList n .element
      node .other start
    | _ =>
      let e ← atom n
      trailers n start e

/-- An expression that binds at least as much as `|` does, or stands in brackets. -/
def upToBitOr : Nat → Parse Node
  | 0 => failure
  | n + 1 => do
    let e ← conditional n .plain
    require (e.grouped || !(e.shape == .logic || e.shape == .conditional || e.shape == .lambda))
    return e

/-- Calls, subscripts and attributes of what has been read. -/
def trailers : Nat → Nat → Node → Parse Node
  | 0, _, _ => failure
  | n + 1, start, base => do
    match ← peek with
    | .opening .round =>
      advance
      arguments n {}
      let e ← node .other start
      trailers n start { e with grouped := base.grouped }
    | .opening .square =>
      advance
      slices n
      expect (.closing .square)
      let e ← target (.subscript base.stop) start true
      trailers n start { e with grouped := base.grouped }
    | .sign "." =>
      advance
      match ← peek with
      | .name _ =>
        advance
        let e ← target .other start true
        trailers n start { e with grouped := base.grouped }
      | _ => failure
    | _ => return base

def atom : Nat → Parse Node
  | 0 => failure
  | n + 1 => do
    let start ← here
    match ← peek with
    | .name _ =>
      advance
      target .name start true
    | .number | .sign "..." | .keyword "None" | .keyword "True" | .keyword "False" =>
      advance
      node .other start
    | .string _ | .stringStart _ =>
      strings n []
      node .other start
    | .opening .round =>
      advance
      group n start
    | .opening .square =>
      advance
      listDisplay n start
    | .opening .curly =>
      advance
      setOrMapping n start
    | _ => failure

/-- Strings side by side. -/
def strings : Nat → List Flavour → Parse Unit
  | 0, _ => failure
  | n + 1, seen => do
    match ← peek with
    | .string flavour =>
      advance
      strings n (flavour :: seen)
    | .stringStart flavour =>
      advance
      fields n
      expect .stringEnd
      strings n (flavour :: seen)
    | _ => require (joinable seen)

/-- The text of a string, or of a format, with expressions in braces. -/
def fields : Nat → Parse Unit
  | 0 => failure
  | n + 1 => do
    match ← peek with
    | .stringPart =>
      advance
      fields n
    | .opening .curly =>
      advance
      let e ← expressionList n .grouping
      require (e.grouped || e.shape != .lambda)
      let _ ← accept (.sign "=")
      if ← accept (.sign "!") then
        require ((← here) == (← last))
        match ← peek with
        | .name spelling =>
          require ([['s'], ['r'], ['a']].contains spelling)
          advance
        | _ => failure
      if ← accept (.sign ":") then fields n
      expect (.closing .curly)
      fields n
    | _ => return ()

/-- What follows a round bracket that opened at `start`. -/
def group : Nat → Nat → Parse Node
  | 0, _ => failure
  | n + 1, start => do
    if ← accept (.closing .round) then target (.tuple false) start true
    else
      let first ← named n .grouping
      let next ← peek
      if next = .sign "," then
        let assignable ← moreElements n first.assignable
        expect (.closing .round)
        target (.tuple false) start assignable
      else if startsComprehension next then
        require !first.bareStarred
        comprehensions n
        expect (.closing .round)
        node (.generator false) start
      else
        require (first.shape != .starred)
        expect (.closing .round)
        return { first with grouped := true }

def listDisplay : Nat → Nat → Parse Node
  | 0, _ => failure
  | n + 1, start => do
    if ← accept (.closing .square) then target .other start true
    else
      let first ← named n .element
      if startsComprehension (← peek) then
        require !first.bareStarred
        comprehensions n
        expect (.closing .square)
        node .other start
      else
        let assignable ← moreElements n first.assignable
        expect (.closing .square)
        target .other start assignable

def setOrMapping : Nat → Nat → Parse Node
  | 0, _ => failure
  | n + 1, start => do
    if ← accept (.closing .curly) then node .other start
    else if ← accept (.sign "**") then
      let _ ← upToBitOr n
      moreEntries n
      expect (.closing .curly)
      node .other start
    else
      let first ← named n .element
      let next ← peek
      if startsComprehension next then
        require !first.bareStarred
        comprehensions n
      else if next = .sign ":" then
        require (first.grouped || !(first.shape == .starred || first.shape == .named))
        advance
        let _ ← conditional n .plain
        if startsComprehension (← peek) then comprehensions n else moreEntries n
      else
        let _ ← moreElements n false
      expect (.closing .curly)
      node .other start

/-- Further entries of a mapping, after the first one. -/
def moreEntries : Nat → Parse Unit
  | 0 => failure
  | n + 1 => do
    if ← accept (.sign ",") then
      if ← accept (.sign "**") then
        let _ ← upToBitOr n
        moreEntries n
      else if startsExpression (← peek) then
        let _ ← conditional n .plain
        expect (.sign ":")
        let _ ← conditional n .plain
        moreEntries n

/-- `for … in … if …`, at least once. -/
def comprehensions : Nat → Parse Unit
  | 0 => failure
  | n + 1 => do
    let _ ← accept (.keyword "async")
    expect (.keyword "for")
    let targets ← expressionList n .target
    require targets.assignable
    expect (.keyword "in")
    let _ ← operation n Level.lowest .plain
    conditions n
    if startsComprehension (← peek) then comprehensions n

def conditions : Nat → Parse Unit
  | 0 => failure
  | n + 1 => do
    if ← accept (.keyword "if") then
      let _ ← operation n Level.lowest .plain
      conditions n

/-- What stands in the brackets of a subscript. -/
def slices : Nat → Parse Unit
  | 0 => failure
  | n + 1 => do
    slice n
    if ← accept (.sign ",") then
      let next ← peek
      if next = .sign ":" ∨ startsExpression next = true then slices n

def slice : Nat → Parse Unit
  | 0 => failure
  | n + 1 => do
    let whole ← (do
      if startsExpression (← peek) then
        let lower ← named n .argument
        if (← peek) = .sign ":" then
          require (lower.grouped || !(lower.shape == .starred || lower.shape == .named))
          return false
        else return true
      else return false)
    if !whole then
      expect (.sign ":")
      bound n
      if ← accept (.sign ":") then bound n

/-- A bound of a slice; it may be left out. -/
def bound : Nat → Parse Unit
  | 0 => failure
  | n + 1 => do
    let next ← peek
    if next != .sign "," && next != .sign ":" && next != .closing .square then
      let _ ← conditional n .plain

/-- The arguments of a call, up to its closing bracket. -/
def arguments : Nat → ArgumentsSeen → Parse Unit
  | 0, _ => failure
  | n + 1, seen => do
    if startsExpression (← peek) then
      let seen ← argument n seen
      if ← accept (.sign ",") then arguments n { seen with trailingComma := true }
      else
        require seen.valid
        expect (.closing .round)
    else
      require seen.valid
      expect (.closing .round)

def argument : Nat → ArgumentsSeen → Parse ArgumentsSeen
  | 0, _ => failure
  | n + 1, seen => do
    let seen := { seen with count := seen.count + 1, trailingComma := false }
    if ← accept (.sign "**") then
      let _ ← conditional n .plain
      return { seen with unpacked := true }
    else
      let e ← named n .argument
      if startsComprehension (← peek) then
        require !e.bareStarred
        comprehensions n
        require ((← peek) != .sign "=" && !seen.unpacked && !seen.keyword)
        return { seen with bareGenerator := true }
      else if e.bareStarred then
        require ((← peek) != .sign "=" && !seen.unpacked)
        return seen
      else if ← accept (.sign "=") then
        require (e.shape == .name)
        let _ ← conditional n .plain
        return { seen with keyword := true }
      else
        require (!seen.unpacked && !seen.keyword)
        return seen

/-- The parameters of a function without a name. -/
def parameters : Nat → ParametersSeen → Parse Unit
  | 0, _ => failure
  | n + 1, seen => do
    if startsParameter (← peek) then
      let (seen, defaulted) ← parameterStart seen
      if defaulted then
        advance
        let _ ← conditional n .plain
      if ← accept (.sign ",") then parameters n seen else require !seen.starLast
    else require !seen.starLast

end

/-- Enough fuel for the expressions in `ts`. -/
def fuelFor (ts : List Token) : Nat := 16 * (ts.length + 2)

end Traceback.Code
