import Traceback.Json.Value

/-! # Records in JSON texts

A record is written as an object, its members in any order and with others among them, or as the list of its
members in their order. Members that are not required keep the value that the record begins with.

* `Member`: a member of records of a type.
* `Read.record`: a record with given members.
-/

namespace Traceback.Json
set_option autoImplicit false

structure Member (σ : Type) where
  name : String
  required : Bool := false
  /-- Reads the member's value into a record. -/
  read : σ → Read σ

namespace Read

variable {σ : Type}

/-- Whether an object goes on with another member. -/
def nextMember (first : Bool) : Read Bool := do
  match ← token with
  | none => faultHere (.ended .object)
  | some '}' => return false
  | some c =>
    let c ← (do
      if first then return c
      else if c = ',' then
        skip
        match ← token with
        | none => faultHere (.ended .value)
        | some d => return d
      else faultAhead .expectedObjectCommaOrEnd)
    if c = '"' then return true
    else if c = '}' then faultAhead .trailingComma
    else faultAhead .keyMustBeString

def colon : Read Unit := do
  match ← token with
  | none => faultHere (.ended .object)
  | some ':' => skip
  | some _ => faultAhead .expectedColon

/-- The end of an object that has been read. -/
def endObject : Read Unit := do
  match ← token with
  | none => faultHere (.ended .object)
  | some '}' => skip
  | some ',' => faultAhead .trailingComma
  | some _ => faultAhead .trailingCharacters

/-- A fault of the record itself, noticed in an object; its place is where closing the object leads. -/
def faultInObject {α : Type} (reason : Reason) : Read α := do
  if (← token) = some '}' then skip
  faultHere reason

/-- A fault of the record itself, noticed in a list; its place is where closing the list leads. -/
def faultInList {α : Type} (reason : Reason) : Read α := do
  match ← token with
  | some ']' => skip
  | some ',' =>
    skip
    spaces
  | _ => pure ()
  faultHere reason

/-- The members of an object up to its end, `seen` being those read before. -/
def membersOf (members : List (Member σ)) : (fuel : Nat) → (first : Bool) → (seen : List String) → σ → Read σ
  | 0, _, _, _ => faultHere (.ended .object)
  | fuel + 1, first, seen, r => do
    if ← nextMember first then
      skip
      let key ← string
      match members.find? fun m => m.name.toList = key with
      | none =>
        colon
        ignored
        membersOf members fuel false seen r
      | some m =>
        if seen.contains m.name then faultInObject (.duplicate m.name)
        else
          colon
          let r ← m.read r
          membersOf members fuel false (m.name :: seen) r
    else
      match members.find? fun m => m.required && !seen.contains m.name with
      | some m => faultInObject (.missing m.name)
      | none => return r

/-- The members in order, as far as the list goes; `position` of them were read before. -/
def membersInOrder (name : String) (length : Nat) : (position : Nat) → List (Member σ) → σ → Read σ
  | _, [], r => return r
  | position, m :: members, r => do
    if ← nextElement (position == 0) then
      let r ← m.read r
      membersInOrder name length (position + 1) members r
    else if m.required then faultInList (.wrongLength position name length)
    else membersInOrder name length (position + 1) members r

/-- A record whose members have `levels` levels of brackets left. -/
def record (name : String) (members : List (Member σ)) (levels : Nat) (empty : σ) : Read σ := do
  let c ← valueToken
  if c = '[' then
    openBracket levels
    let r ← membersInOrder name members.length 0 members empty
    endList
    return r
  else if c = '{' then
    openBracket levels
    let r ← membersOf members ((← get).rest.length + 1) true [] empty
    endObject
    return r
  else wrongType ("struct " ++ name)

/-- A value and nothing behind it. -/
def document {α : Type} (value : Read α) : Read α := do
  let a ← value
  match ← token with
  | none => return a
  | some _ => faultAhead .trailingCharacters

end Read

/-- The value that a text denotes. -/
def parse {α : Type} (value : Read α) (t : Text) : Except Fault α :=
  match (Read.document value).run (.start t) with
  | .ok (a, _) => .ok a
  | .error f => .error f

end Traceback.Json
