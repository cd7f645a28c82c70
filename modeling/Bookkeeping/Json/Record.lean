import Bookkeeping.Json.Reading

/-! # Records

A record is given by the list of its fields. It is read from an object, whose other members are
ignored, or from an array that holds exactly its fields in their order. In an object the first
unreadable member counts, in the order of names; a missing field counts only after that.
-/
namespace Bookkeeping.Json
open Bookkeeping.Text

/-- A named part of a record and how it is read. -/
structure Field where
  Value : Type
  name : String
  read : Reader Value

def Record : List Field → Type
  | [] => Unit
  | f :: fs => f.Value × Record fs

namespace Record

/-- Reads a member if it belongs to one of the fields, and forgets its value. -/
def checkMember (name : String) (value : Json) : List Field → Except ReadError Unit
  | [] => .ok ()
  | f :: fs => if name = f.name then (f.read value).map fun _ => () else checkMember name value fs

def checkMembers (fields : List Field) : Members → Except ReadError Unit
  | [] => .ok ()
  | (name, value) :: rest => do
    checkMember name value fields
    checkMembers fields rest

def collect (members : Members) : (fields : List Field) → Except ReadError (Record fields)
  | [] => .ok ()
  | f :: fs =>
    match member? f.name members with
    | none => .error (.missingField f.name)
    | some v => do
      let a ← f.read v
      let rest ← collect members fs
      return (a, rest)

def lengthExpectation (name : String) (count : Nat) : String :=
  "struct " ++ name ++ " with " ++ naturalText count ++
    (if count = 1 then " element" else " elements")

/-- Reads each field from the item at its position; `position` items precede. -/
def collectItems (name : String) (count : Nat) (position : Nat) :
    (fields : List Field) → List Json → Except ReadError (Record fields × List Json)
  | [], rest => .ok ((), rest)
  | _ :: _, [] => .error (.invalidLength position (lengthExpectation name count))
  | f :: fs, v :: rest => do
    let a ← f.read v
    let (tail, left) ← collectItems name count (position + 1) fs rest
    return ((a, tail), left)

def read (name : String) (fields : List Field) : Reader (Record fields)
  | .object members => do
    checkMembers fields members
    collect members fields
  | .array items => do
    let (record, left) ← collectItems name fields.length 0 fields items
    if left.isEmpty then return record
    else throw (.invalidLength items.length "fewer elements in array")
  | v => .error (.invalidType v.found ("struct " ++ name))

end Record

end Bookkeeping.Json
