import Traceback.Json.Scalar

/-! # Values in JSON texts

* `Read.ignored`: a value that nobody asked for.
* `Read.wrongType`: the fault of a value that is not what was expected.
* `Read.text`, `Read.word64`, `Read.bool`, `Read.option`, `Read.list`: values that are.
-/

namespace Traceback.Json
set_option autoImplicit false

namespace Read

variable {α : Type}

/-! ## Values nobody asked for -/

mutual

/-- A value of any sort, nested to any depth. -/
def ignoredWithin : (fuel : Nat) → Read Unit
  | 0 => faultHere (.ended .value)
  | fuel + 1 => do
    match ← token with
    | none => faultHere (.ended .value)
    | some c =>
      if c = 'n' then
        skip
        word ['u', 'l', 'l']
      else if c = 't' then
        skip
        word ['r', 'u', 'e']
      else if c = 'f' then
        skip
        word ['a', 'l', 's', 'e']
      else if c = '-' then
        skip
        ignoredNumber
      else if isDigit c then ignoredNumber
      else if c = '"' then
        skip
        ignoredString
      else if c = '[' then
        skip
        match ← token with
        | none => faultHere (.ended .list)
        | some ']' => skip
        | some _ => ignoredElements fuel
      else if c = '{' then
        skip
        match ← token with
        | none => faultHere (.ended .object)
        | some '}' => skip
        | some _ => ignoredMembers fuel
      else faultAhead .expectedValue

/-- The elements of a list, up to its end. -/
def ignoredElements : (fuel : Nat) → Read Unit
  | 0 => faultHere (.ended .list)
  | fuel + 1 => do
    ignoredWithin fuel
    match ← token with
    | none => faultHere (.ended .list)
    | some ',' =>
      skip
      ignoredElements fuel
    | some ']' => skip
    | some _ => faultAhead .expectedListCommaOrEnd

/-- The members of an object, up to its end. -/
def ignoredMembers : (fuel : Nat) → Read Unit
  | 0 => faultHere (.ended .object)
  | fuel + 1 => do
    match ← token with
    | none => faultHere (.ended .object)
    | some '"' =>
      skip
      ignoredString
    | some _ => faultAhead .keyMustBeString
    match ← token with
    | none => faultHere (.ended .object)
    | some ':' => skip
    | some _ => faultAhead .expectedColon
    ignoredWithin fuel
    match ← token with
    | none => faultHere (.ended .object)
    | some ',' =>
      skip
      ignoredMembers fuel
    | some '}' => skip
    | some _ => faultAhead .expectedObjectCommaOrEnd

end

/-- A value of any sort; every two calls take at least one character. -/
def ignored : Read Unit := do ignoredWithin (2 * (← get).rest.length + 2)

/-! ## Values of other types -/

/-- The fault of finding the value ahead where `expected` was; scalars are read first. -/
def wrongType (expected : String) : Read α := do
  match ← peek with
  | none => faultAhead .expectedValue
  | some c =>
    if c = 'n' then
      skip
      word ['u', 'l', 'l']
      faultHere (.wrongType .null expected)
    else if c = 't' then
      skip
      word ['r', 'u', 'e']
      faultHere (.wrongType (.boolean true) expected)
    else if c = 'f' then
      skip
      word ['a', 'l', 's', 'e']
      faultHere (.wrongType (.boolean false) expected)
    else if c = '-' then
      skip
      let n ← number false
      faultHere (.wrongType (.number n) expected)
    else if isDigit c then
      let n ← number true
      faultHere (.wrongType (.number n) expected)
    else if c = '"' then
      skip
      let t ← string
      faultHere (.wrongType (.text t) expected)
    else if c = '[' then faultHere (.wrongType .sequence expected)
    else if c = '{' then faultHere (.wrongType .map expected)
    else faultAhead .expectedValue

/-- What the next token begins with; there has to be one. -/
def valueToken : Read Char := do
  match ← token with
  | some c => return c
  | none => faultHere (.ended .value)

/-! ## Values that are expected -/

def text : Read Text := do
  if (← valueToken) = '"' then
    skip
    string
  else wrongType "a string"

/-- A number as a word of 64 bits. -/
def asWord (n : Number) : Read UInt64 :=
  match n with
  | .natural n => return UInt64.ofNat n
  | .negative m => faultHere (.wrongValue (.negative m) "usize")
  | .real x => faultHere (.wrongType (.number (.real x)) "usize")

def word64 : Read UInt64 := do
  let c ← valueToken
  if c = '-' then
    skip
    let n ← number false
    asWord n
  else if isDigit c then
    let n ← number true
    asWord n
  else wrongType "usize"

def bool : Read Bool := do
  let c ← valueToken
  if c = 't' then
    skip
    word ['r', 'u', 'e']
    return true
  else if c = 'f' then
    skip
    word ['a', 'l', 's', 'e']
    return false
  else wrongType "a boolean"

/-- A value, or `null` for none. -/
def option (value : Read α) : Read (Option α) := do
  if (← token) = some 'n' then
    skip
    word ['u', 'l', 'l']
    return none
  else return some (← value)

/-! ## Lists -/

/-- Whether a list goes on with another element. -/
def nextElement (first : Bool) : Read Bool := do
  match ← token with
  | none => faultHere (.ended .list)
  | some ']' => return false
  | some c =>
    if first then return true
    else if c = ',' then
      skip
      match ← token with
      | none => faultHere (.ended .value)
      | some ']' => faultAhead .trailingComma
      | some _ => return true
    else faultAhead .expectedListCommaOrEnd

/-- The end of a list that has been read. -/
def endList : Read Unit := do
  match ← token with
  | none => faultHere (.ended .list)
  | some ']' => skip
  | some ',' =>
    skip
    if (← token) = some ']' then faultAhead .trailingComma else faultAhead .trailingCharacters
  | some _ => faultAhead .trailingCharacters

/-- A bracket may open only while levels are left. -/
def openBracket (levels : Nat) : Read Unit := if levels = 0 then faultAhead .tooDeep else skip

def elements (value : Read α) : (fuel : Nat) → (first : Bool) → Read (List α)
  | 0, _ => faultHere (.ended .list)
  | fuel + 1, first => do
    if ← nextElement first then
      let a ← value
      return a :: (← elements value fuel false)
    else return []

/-- A list whose elements have `levels` levels of brackets left. -/
def list (levels : Nat) (value : Read α) : Read (List α) := do
  if (← valueToken) = '[' then
    openBracket levels
    let l ← elements value ((← get).rest.length + 1) true
    endList
    return l
  else wrongType "a sequence"

end Read
end Traceback.Json
