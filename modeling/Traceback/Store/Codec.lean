import Traceback.Text.Utf8

/-! # Binary codecs

A codec writes values as bytes and reads them back from the front of any bytes. What it writes tells where
it ends, so values can be written one after the other.

* `Codec.number`: numbers in groups of seven bits, the lowest first, all bytes but the last marked.
* `Codec.bool`, `Codec.text`, `Codec.option`, `Codec.list`: tags and counts in front of what they announce.
* `Codec.pair`, `Codec.iso`: codecs for structures.
-/

namespace Traceback
set_option autoImplicit false

/-- Why bytes cannot be read. -/
inductive CodecFault where
  | endOfData | badNumber | badBool | badText | badOption
  deriving DecidableEq, Repr

def CodecFault.message : CodecFault → Text
  | endOfData => "Hit the end of buffer, expected more data".toList
  | badNumber => "Found a varint that didn't terminate. Is the usize too big for this platform?".toList
  | badBool => "Found a bool that wasn't 0 or 1".toList
  | badText => "Tried to parse invalid utf-8".toList
  | badOption => "Found an Option discriminant that wasn't 0 or 1".toList

/-- A way to write values of a type, and to read one with what follows it. -/
structure Codec (α : Type) where
  write : α → Bytes
  read : Bytes → Except CodecFault (α × Bytes)

namespace Codec

variable {α β : Type}

/-! ## Numbers -/

def writeNat (n : Nat) : Bytes :=
  if n < 128 then [UInt8.ofNat n] else UInt8.ofNat (128 + n % 128) :: writeNat (n / 128)
termination_by n
decreasing_by omega

/-- A number of at most `places` bytes; in the last place only the lowest bit counts. -/
def readNat : (places : Nat) → Bytes → Except CodecFault (Nat × Bytes)
  | 0, _ => .error .badNumber
  | _ + 1, [] => .error .endOfData
  | places + 1, b :: rest =>
    if b < 128 then
      if places = 0 ∧ 1 < b then .error .badNumber else .ok (b.toNat, rest)
    else
      match readNat places rest with
      | .error f => .error f
      | .ok (high, rest) => .ok (b.toNat - 128 + 128 * high, rest)

/-- Numbers below 2^64. -/
def nat : Codec Nat := ⟨writeNat, readNat 10⟩

/-! ## Structures -/

def iso (c : Codec α) (into : α → β) (out : β → α) : Codec β where
  write b := c.write (out b)
  read bytes :=
    match c.read bytes with
    | .error f => .error f
    | .ok (a, rest) => .ok (into a, rest)

def pair (c : Codec α) (d : Codec β) : Codec (α × β) where
  write p := c.write p.1 ++ d.write p.2
  read bytes :=
    match c.read bytes with
    | .error f => .error f
    | .ok (a, rest) =>
      match d.read rest with
      | .error f => .error f
      | .ok (b, rest) => .ok ((a, b), rest)

def number : Codec UInt64 := nat.iso UInt64.ofNat UInt64.toNat

/-! ## Tags -/

/-- A byte that is 0 or 1; `fault` for any other. -/
def tag (fault : CodecFault) : Codec Bool where
  write b := [if b then 1 else 0]
  read
    | [] => .error .endOfData
    | b :: rest => if b = 0 then .ok (false, rest) else if b = 1 then .ok (true, rest) else .error fault

def bool : Codec Bool := tag .badBool

def option (c : Codec α) : Codec (Option α) where
  write
    | none => (tag .badOption).write false
    | some a => (tag .badOption).write true ++ c.write a
  read bytes :=
    match (tag .badOption).read bytes with
    | .error f => .error f
    | .ok (false, rest) => .ok (none, rest)
    | .ok (true, rest) =>
      match c.read rest with
      | .error f => .error f
      | .ok (a, rest) => .ok (some a, rest)

/-! ## Counts -/

/-- A text, after the number of its bytes. -/
def text : Codec Text where
  write t := nat.write (Utf8.encode t).length ++ Utf8.encode t
  read bytes :=
    match nat.read bytes with
    | .error f => .error f
    | .ok (n, rest) =>
      if rest.length < n then .error .endOfData
      else
        match Utf8.decode? (rest.take n) with
        | none => .error .badText
        | some t => .ok (t, rest.drop n)

def readMany (c : Codec α) : (count : Nat) → Bytes → Except CodecFault (List α × Bytes)
  | 0, bytes => .ok ([], bytes)
  | count + 1, bytes =>
    match c.read bytes with
    | .error f => .error f
    | .ok (a, rest) =>
      match readMany c count rest with
      | .error f => .error f
      | .ok (l, rest) => .ok (a :: l, rest)

/-- Elements, after their number. -/
def list (c : Codec α) : Codec (List α) where
  write l := nat.write l.length ++ l.flatMap c.write
  read bytes :=
    match nat.read bytes with
    | .error f => .error f
    | .ok (n, rest) => c.readMany n rest

end Codec
end Traceback
