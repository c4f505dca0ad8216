import Traceback.Json.Cursor

/-! # Strings and numbers in JSON texts

* `Read.string`: a string whose opening quote has been taken.
* `Read.number`: a number, its sign taken.
* `Read.ignoredString`, `Read.ignoredNumber`: the same for values that nobody asked for, with less demanded.
-/

namespace Traceback.Json
set_option autoImplicit false

namespace Read

/-! ## Strings -/

def hexDigit? (c : Char) : Option Nat :=
  if '0' ≤ c ∧ c ≤ '9' then some (c.toNat - 48)
  else if 'a' ≤ c ∧ c ≤ 'f' then some (c.toNat - 87)
  else if 'A' ≤ c ∧ c ≤ 'F' then some (c.toNat - 55)
  else none

/-- The cursor after `n` bytes, and whether the text has that many. -/
def afterBytes (n : Nat) : Text → Place → Bool × Cursor
  | [], p => (n == 0, ⟨[], p⟩)
  | c :: rest, p =>
    if n = 0 then (true, ⟨c :: rest, p⟩)
    else
      let size := (Utf8.encodeChar c).length
      if n < size then (true, ⟨c :: rest, p.within c n⟩) else afterBytes (n - size) rest (p.after c)

/-- Four hexadecimal digits. -/
def hexCode : Read Nat := do
  let c ← get
  let (enough, after) := afterBytes 4 c.rest c.place
  set after
  if !enough then faultHere (.ended .string)
  else
    match (c.rest.take 4).mapM hexDigit? with
    | some ds => return ds.foldl (fun n d => 16 * n + d) 0
    | none => faultHere .invalidEscape

/-- Takes `c`, which must follow the first half of a pair. -/
def pairMark (c : Char) : Read Unit := do
  match ← peek with
  | none => faultHere (.ended .string)
  | some d => if d = c then skip else faultAhead .unexpectedEndOfHexEscape

/-- The character of an escape by code, which may take a pair of codes. -/
def coded : Read Char := do
  let n ← hexCode
  if 0xDC00 ≤ n ∧ n ≤ 0xDFFF then faultHere .loneSurrogate
  else if 0xD800 ≤ n ∧ n ≤ 0xDBFF then
    pairMark '\\'
    pairMark 'u'
    let m ← hexCode
    if m < 0xDC00 ∨ 0xDFFF < m then faultHere .loneSurrogate
    else return Char.ofNat ((n - 0xD800) * 1024 + (m - 0xDC00) + 0x10000)
  else return Char.ofNat n

/-- The character that a letter after a backslash denotes. -/
def escapeLetter? (c : Char) : Option Char :=
  if c = '"' ∨ c = '\\' ∨ c = '/' then some c
  else if c = 'b' then some '\x08'
  else if c = 'f' then some '\x0c'
  else if c = 'n' then some '\n'
  else if c = 'r' then some '\r'
  else if c = 't' then some '\t'
  else none

def escape : Read Char := do
  match ← next with
  | none => faultHere (.ended .string)
  | some 'u' => coded
  | some c =>
    match escapeLetter? c with
    | some d => return d
    | none => faultHere .invalidEscape

def isControl (c : Char) : Bool := c.toNat < 0x20

/-- The characters up to the closing quote, of which there are fewer than `fuel`. -/
def stringWithin : (fuel : Nat) → Read Text
  | 0 => faultHere (.ended .string)
  | fuel + 1 => do
    match ← next with
    | none => faultHere (.ended .string)
    | some '"' => return []
    | some '\\' =>
      let c ← escape
      return c :: (← stringWithin fuel)
    | some c => if isControl c then faultHere .controlCharacter else return c :: (← stringWithin fuel)

def string : Read Text := do stringWithin ((← get).rest.length + 1)

def ignoredStringWithin : (fuel : Nat) → Read Unit
  | 0 => faultHere (.ended .string)
  | fuel + 1 => do
    match ← peek with
    | none => faultHere (.ended .string)
    | some '"' => skip
    | some '\\' =>
      skip
      match ← next with
      | none => faultHere (.ended .string)
      | some 'u' =>
        let _ ← hexCode
        ignoredStringWithin fuel
      | some c => if (escapeLetter? c).isSome then ignoredStringWithin fuel else faultHere .invalidEscape
    | some c =>
      if isControl c then faultHere .controlCharacter
      else
        skip
        ignoredStringWithin fuel

def ignoredString : Read Unit := do ignoredStringWithin ((← get).rest.length + 1)

/-! ## Numbers -/

def isDigit (c : Char) : Bool := '0' ≤ c && c ≤ '9'

/-- Digits as far as they go. -/
def digits : Read (List Nat) := do
  let c ← get
  let found := c.rest.takeWhile isDigit
  set (⟨c.rest.drop found.length, ⟨c.place.line, c.place.column + found.length⟩⟩ : Cursor)
  return found.map fun d => d.toNat - 48

def limit64 : Nat := UInt64.size

/-- `n` with as many of the digits appended as fit into 64 bits, and the number of the others. -/
def appendDigits (n : Nat) : List Nat → Nat × Nat
  | [] => (n, 0)
  | d :: ds => if 10 * n + d < limit64 then appendDigits (10 * n + d) ds else (n, ds.length + 1)

def powerOfTen (n : Nat) : Float := Float.ofScientific 1 false n

def ofNat (n : Nat) : Float := (UInt64.ofNat n).toFloat

/-- `x` divided by `10^n`, in steps that a power of ten can take. -/
def divided : (fuel : Nat) → Float → (n : Nat) → Float
  | 0, x, _ => x
  | fuel + 1, x, n =>
    if n ≤ 308 then x / powerOfTen n
    else if x == 0 then x
    else divided fuel (x / powerOfTen 308) (n - 308)

/-- The real number `± significand · 10^exponent`, by one product or by quotients. -/
def real (positive : Bool) (significand : Nat) (exponent : Int) : Read Number := do
  let x := ofNat significand
  if exponent < 0 then
    let y := divided 4 x exponent.natAbs
    return .real (if positive then y else -y)
  else if exponent ≤ 308 then
    let y := x * powerOfTen exponent.toNat
    if y == 1 / 0 then faultHere .numberOutOfRange else return .real (if positive then y else -y)
  else if significand = 0 then return .real (if positive then x else -x)
  else faultHere .numberOutOfRange

/-- The digits of an exponent after `n`; none when there are too many for 31 bits. -/
def exponentDigits : (fuel n : Nat) → Read (Option Nat)
  | 0, n => return some n
  | fuel + 1, n => do
    match ← peek with
    | some c =>
      if isDigit c then
        skip
        let m := 10 * n + (c.toNat - 48)
        if m < Nat.pow 2 31 then exponentDigits fuel m else return none
      else return some n
    | none => return some n

/-- An exponent whose letter has been taken. -/
def scaledBy (positive : Bool) (significand : Nat) (exponent : Int) : Read Number := do
  let negativeExponent ← (do
    match ← peek with
    | some '+' =>
      skip
      return false
    | some '-' =>
      skip
      return true
    | _ => return false)
  match ← next with
  | none => faultHere (.ended .value)
  | some c =>
    if !isDigit c then faultHere .invalidNumber
    else
      match ← exponentDigits (← get).rest.length (c.toNat - 48) with
      | some n => real positive significand (if negativeExponent then exponent - n else exponent + n)
      | none =>
        if significand ≠ 0 ∧ negativeExponent = false then faultHere .numberOutOfRange
        else
          let _ ← digits
          return .real (if positive then 0.0 else -0.0)

def isExponentMark (c : Option Char) : Bool := c == some 'e' || c == some 'E'

/-- A fraction whose point has been taken. -/
def fraction (positive : Bool) (significand : Nat) (exponent : Int) : Read Number := do
  let ds ← digits
  if ds.isEmpty then
    match ← peek with
    | some _ => faultAhead .invalidNumber
    | none => faultHere (.ended .value)
  else
    let (n, dropped) := appendDigits significand ds
    let exponent := exponent - (ds.length - dropped : Nat)
    if isExponentMark (← peek) then
      skip
      scaledBy positive n exponent
    else real positive n exponent

/-- An integer without a fraction or exponent, its last `dropped` digits left out of `n`. -/
def whole (positive : Bool) (n dropped : Nat) : Read Number :=
  if dropped ≠ 0 then real positive n dropped
  else if positive then return .natural n
  else if n = 0 ∨ Nat.pow 2 63 < n then return .real (-ofNat n)
  else return .negative n

def number (positive : Bool) : Read Number := do
  match ← next with
  | none => faultHere (.ended .value)
  | some c =>
    if !isDigit c then faultHere .invalidNumber
    else
      let following ← peek
      if c = '0' ∧ following.any isDigit = true then faultAhead .invalidNumber
      else
        let (n, dropped) := appendDigits (c.toNat - 48) (← digits)
        let following ← peek
        if following = some '.' then
          skip
          fraction positive n dropped
        else if isExponentMark following then
          skip
          scaledBy positive n dropped
        else whole positive n dropped

def ignoredExponent : Read Unit := do
  skip
  match ← peek with
  | some '+' => skip
  | some '-' => skip
  | _ => pure ()
  match ← next with
  | some c => if isDigit c then let _ ← digits else faultHere .invalidNumber
  | none => faultHere .invalidNumber

def ignoredNumber : Read Unit := do
  match ← next with
  | none => faultHere .invalidNumber
  | some c =>
    if !isDigit c then faultHere .invalidNumber
    else
      if c = '0' ∧ (← peek).any isDigit = true then faultAhead .invalidNumber
      let _ ← digits
      let following ← peek
      if following = some '.' then
        skip
        if (← digits).isEmpty then faultAhead .invalidNumber
        if isExponentMark (← peek) then ignoredExponent
      else if isExponentMark following then ignoredExponent

end Read
end Traceback.Json
