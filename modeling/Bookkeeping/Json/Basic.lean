import Bookkeeping.Json.Binary64

/-! # JSON values

Integers and floating point numbers are told apart. The members of an object are kept in ascending
order of their names, each name once.
-/
namespace Bookkeeping

inductive Json where
  | null
  | bool (b : Bool)
  | integer (n : Int)
  | float (x : Json.Binary64)
  | string (s : String)
  | array (items : List Json)
  | object (members : List (String × Json))
  deriving Inhabited

namespace Json

abbrev Members := List (String × Json)

/-- Sets a member at its place in the order. -/
def insertMember (name : String) (value : Json) : Members → Members
  | [] => [(name, value)]
  | (other, v) :: rest =>
    if name = other then (name, value) :: rest
    else if name < other then (name, value) :: (other, v) :: rest
    else (other, v) :: insertMember name value rest

/-- The object with these members; of two with one name the later counts. -/
def ofMembers (members : Members) : Json :=
  .object (members.foldl (fun sorted (name, value) => insertMember name value sorted) [])

def member? (name : String) : Members → Option Json
  | [] => none
  | (other, v) :: rest => if name = other then some v else member? name rest

def get? (name : String) : Json → Option Json
  | .object members => member? name members
  | _ => none

def ofNat (n : Nat) : Json := .integer n

def ofOption {α : Type} (f : α → Json) : Option α → Json
  | none => .null
  | some a => f a

end Json

end Bookkeeping
