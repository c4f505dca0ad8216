import Traceback.Decimal.Shortest
import Traceback.Text.Quoted

/-! # Faults in JSON texts

* `Json.Number`: a number as it is read.
* `Json.Reason`: what is wrong, with `Reason.message`.
* `Json.Fault`: a reason and where it was noticed.
-/

namespace Traceback.Json
set_option autoImplicit false

/-! ## Numbers -/

inductive Number where
  | natural (n : Nat)
  /-- An integer below zero. -/
  | negative (magnitude : Nat)
  | real (x : Float)

/-- A real number: with a point between 10^-5 and 10^16, otherwise with an exponent; never without one of
the two. -/
def realText (x : Float) : Text :=
  let sign : Text := if x.toBits.toNat < Nat.pow 2 63 then [] else ['-']
  if x == 0 then sign ++ "0.0".toList
  else
    let d := (Decimal.Around.ofFloat x).shortest
    let digits := Text.ofNat d.digits
    let point : Int := digits.length + d.exponent
    sign ++
      if 0 ≤ d.exponent ∧ point ≤ 16 then digits ++ List.replicate d.exponent.toNat '0' ++ ".0".toList
      else if 0 < point ∧ point ≤ 16 then digits.take point.toNat ++ '.' :: digits.drop point.toNat
      else if -5 < point ∧ point ≤ 0 then "0.".toList ++ List.replicate (-point).toNat '0' ++ digits
      else
        let power := point - 1
        let exponent := (if power < 0 then ['-'] else []) ++ Text.ofNat power.natAbs
        match digits with
        | [d] => d :: 'e' :: exponent
        | d :: more => d :: '.' :: more ++ 'e' :: exponent
        | [] => []

/-! ## Reasons -/

/-- What stands where something else was expected. -/
inductive Found where
  | null
  | boolean (b : Bool)
  | number (n : Number)
  | text (t : Text)
  | sequence
  | map

def Found.words : Found → Text
  | null => "null".toList
  | boolean b => (if b then "boolean `true`" else "boolean `false`").toList
  | number (.natural n) => "integer `".toList ++ Text.ofNat n ++ "`".toList
  | number (.negative n) => "integer `-".toList ++ Text.ofNat n ++ "`".toList
  | number (.real x) => "floating point `".toList ++ realText x ++ "`".toList
  | text t => "string ".toList ++ Text.quoted t
  | sequence => "sequence".toList
  | map => "map".toList

/-- What the end of the text cuts short. -/
inductive Part where
  | list | object | string | value
  deriving DecidableEq, Repr

inductive Reason where
  | ended (part : Part)
  | expectedColon | expectedListCommaOrEnd | expectedObjectCommaOrEnd | expectedIdent | expectedValue
  | invalidEscape | invalidNumber | numberOutOfRange | controlCharacter | keyMustBeString | loneSurrogate
  | trailingComma | trailingCharacters | unexpectedEndOfHexEscape | tooDeep
  | wrongType (found : Found) (expected : String)
  | wrongValue (n : Number) (expected : String)
  /-- A list too short for the record `name` of `length` members. -/
  | wrongLength (found : Nat) (name : String) (length : Nat)
  | missing (member : String)
  | duplicate (member : String)

/-- The three sorts of faults: the text ends, the text is no JSON, or the values are not those expected. -/
inductive FaultSort where
  | ended | malformed | unsuitable
  deriving DecidableEq, Repr

namespace Reason

def sort : Reason → FaultSort
  | ended _ => .ended
  | wrongType .. | wrongValue .. | wrongLength .. | missing _ | duplicate _ => .unsuitable
  | _ => .malformed

def message : Reason → Text
  | ended .list => "EOF while parsing a list".toList
  | ended .object => "EOF while parsing an object".toList
  | ended .string => "EOF while parsing a string".toList
  | ended .value => "EOF while parsing a value".toList
  | expectedColon => "expected `:`".toList
  | expectedListCommaOrEnd => "expected `,` or `]`".toList
  | expectedObjectCommaOrEnd => "expected `,` or `\x7d`".toList
  | expectedIdent => "expected ident".toList
  | expectedValue => "expected value".toList
  | invalidEscape => "invalid escape".toList
  | invalidNumber => "invalid number".toList
  | numberOutOfRange => "number out of range".toList
  | controlCharacter => "control character (\\u0000-\\u001F) found while parsing a string".toList
  | keyMustBeString => "key must be a string".toList
  | loneSurrogate => "lone leading surrogate in hex escape".toList
  | trailingComma => "trailing comma".toList
  | trailingCharacters => "trailing characters".toList
  | unexpectedEndOfHexEscape => "unexpected end of hex escape".toList
  | tooDeep => "recursion limit exceeded".toList
  | wrongType found expected => "invalid type: ".toList ++ found.words ++ ", expected ".toList ++ expected.toList
  | wrongValue n expected =>
    "invalid value: ".toList ++ (Found.number n).words ++ ", expected ".toList ++ expected.toList
  | wrongLength found name length =>
    "invalid length ".toList ++ Text.ofNat found ++ ", expected struct ".toList ++ name.toList ++
      " with ".toList ++ Text.ofNat length ++ " elements".toList
  | missing member => "missing field `".toList ++ member.toList ++ "`".toList
  | duplicate member => "duplicate field `".toList ++ member.toList ++ "`".toList

end Reason

/-! ## Places -/

/-- A place in a text: its line, counted from 1, and the bytes before it on that line. -/
structure Place where
  line : Nat
  column : Nat
  deriving DecidableEq, Repr

/-- The place after `n` bytes of a character that begins at `p`. -/
def Place.within (p : Place) (c : Char) (n : Nat) : Place :=
  if c = '\n' then ⟨p.line + 1, 0⟩ else ⟨p.line, p.column + n⟩

def Place.after (p : Place) (c : Char) : Place := p.within c (Utf8.encodeChar c).length

structure Fault where
  reason : Reason
  place : Place

def Fault.message (f : Fault) : Text :=
  f.reason.message ++ " at line ".toList ++ Text.ofNat f.place.line ++ " column ".toList ++
    Text.ofNat f.place.column

end Traceback.Json
