import Traceback.Text.Basic

/-! # UTF-8

Bytes are decoded by a machine that takes one byte at a time. Between two bytes it is either between
characters or inside one; a byte that cannot continue the character it stands in ends that character as
malformed and is then looked at afresh. What is decoded is a list of units: characters, and malformed
parts that are as long as they could be while still starting some character.

* `encode`: the bytes of a text.
* `units`: the units of any bytes, `none` for a malformed part.
* `lossy`: the text of any bytes, U+FFFD for a malformed part.
* `decode?`: the text of bytes without a malformed part.
-/

namespace Traceback.Utf8
set_option autoImplicit false

/-! ## Encoding -/

/-- The bytes of one character. -/
def encodeChar (c : Char) : Bytes :=
  let n := c.toNat
  if n < 0x80 then [UInt8.ofNat n]
  else if n < 0x800 then [UInt8.ofNat (0xC0 + n / 64), UInt8.ofNat (0x80 + n % 64)]
  else if n < 0x10000 then
    [UInt8.ofNat (0xE0 + n / 4096), UInt8.ofNat (0x80 + n / 64 % 64), UInt8.ofNat (0x80 + n % 64)]
  else
    [UInt8.ofNat (0xF0 + n / 262144), UInt8.ofNat (0x80 + n / 4096 % 64), UInt8.ofNat (0x80 + n / 64 % 64),
      UInt8.ofNat (0x80 + n % 64)]

def encode (t : Text) : Bytes := t.flatMap encodeChar

/-! ## The machine -/

/-- Where decoding stands between two bytes. -/
inductive State where
  | between
  /-- Inside a character: the bits read so far, the range its next byte lies in, and how many bytes
  follow that one. -/
  | inside (bits low high further : Nat)
  deriving DecidableEq, Repr

/-- What a first byte starts: a whole character, a longer one, or nothing. -/
def lead (b : Nat) : List (Option Char) × State :=
  if b < 0x80 then ([some (Char.ofNat b)], .between)
  else if b < 0xC2 then ([none], .between)
  else if b < 0xE0 then ([], .inside (b - 0xC0) 0x80 0xBF 0)
  else if b = 0xE0 then ([], .inside 0 0xA0 0xBF 1)
  else if b = 0xED then ([], .inside 0xD 0x80 0x9F 1)
  else if b < 0xF0 then ([], .inside (b - 0xE0) 0x80 0xBF 1)
  else if b = 0xF0 then ([], .inside 0 0x90 0xBF 2)
  else if b < 0xF4 then ([], .inside (b - 0xF0) 0x80 0xBF 2)
  else if b = 0xF4 then ([], .inside 4 0x80 0x8F 2)
  else ([none], .between)

/-- Whether a byte continues the character that the machine stands in. -/
def State.continues : State → Nat → Bool
  | .between, _ => false
  | .inside _ low high _, b => low ≤ b && b ≤ high

/-- One byte: the units that it ends, and where the machine stands after it. -/
def step (s : State) (b : Nat) : List (Option Char) × State :=
  match s with
  | .between => lead b
  | .inside bits low high further =>
    if low ≤ b ∧ b ≤ high then
      match further with
      | 0 => ([some (Char.ofNat (bits * 64 + (b - 0x80)))], .between)
      | n + 1 => ([], .inside (bits * 64 + (b - 0x80)) 0x80 0xBF n)
    else
      let (ended, next) := lead b
      (none :: ended, next)

/-- The units of the bytes when decoding stands at `s`; a character cut by the end is malformed. -/
def unitsFrom : State → Bytes → List (Option Char)
  | .between, [] => []
  | .inside .., [] => [none]
  | s, b :: rest =>
    let (ended, next) := step s b.toNat
    ended ++ unitsFrom next rest

def units (bytes : Bytes) : List (Option Char) := unitsFrom .between bytes

/-! ## Decoding -/

/-- Stands for a malformed part. -/
def replacement : Char := '\uFFFD'

def lossy (bytes : Bytes) : Text := (units bytes).map (·.getD replacement)

def decode? (bytes : Bytes) : Option Text :=
  if (units bytes).all Option.isSome then some (lossy bytes) else none

end Traceback.Utf8
