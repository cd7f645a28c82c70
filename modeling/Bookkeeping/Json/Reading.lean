import Bookkeeping.Decimal.Text
import Bookkeeping.Json.Basic
import Bookkeeping.Refusal
import Bookkeeping.Text.Quoted
import Bookkeeping.Time.Rfc3339

/-! # Typed reading of JSON values

What can be wrong with a value that stands where a certain type is expected, and the readers of
the basic types.
-/
namespace Bookkeeping.Json
open Bookkeeping.Text Bookkeeping.Time

/-- What stands in place of the expected value; items and members are not looked at. -/
inductive Found where
  | null
  | bool (b : Bool)
  | integer (n : Int)
  | float (x : Binary64)
  | string (s : String)
  | sequence
  | map
  deriving DecidableEq, Repr

def found : Json → Found
  | .null => .null
  | .bool b => .bool b
  | .integer n => .integer n
  | .float x => .float x
  | .string s => .string s
  | .array _ => .sequence
  | .object _ => .map

def Found.text : Found → String
  | .null => "null"
  | .bool b => "boolean `" ++ (if b then "true" else "false") ++ "`"
  | .integer n => "integer `" ++ integerText n ++ "`"
  | .float x => "floating point `" ++ x.text ++ "`"
  | .string s => "string " ++ quoted s
  | .sequence => "sequence"
  | .map => "map"

/-- Why a value is not of the expected type. -/
inductive ReadError where
  | invalidType (found : Found) (expected : String)
  | invalidValue (found : Found) (expected : String)
  | invalidLength (length : Nat) (expected : String)
  | missingField (name : String)
  | unknownVariant (name : String) (allowed : List String)
  | refused (refusal : Refusal)
  | malformedInstant (cause : Rfc3339.Cause)
  deriving DecidableEq, Repr

def allowedText (allowed : List String) : String :=
  let ticked := allowed.map fun name => "`" ++ name ++ "`"
  match ticked with
  | [] => "there are no variants"
  | [a] => "expected " ++ a
  | [a, b] => "expected " ++ a ++ " or " ++ b
  | _ => "expected one of " ++ String.intercalate ", " ticked

def ReadError.message : ReadError → String
  | .invalidType f expected => "invalid type: " ++ f.text ++ ", expected " ++ expected
  | .invalidValue f expected => "invalid value: " ++ f.text ++ ", expected " ++ expected
  | .invalidLength n expected =>
    "invalid length " ++ naturalText n ++ ", expected " ++ expected
  | .missingField name => "missing field `" ++ name ++ "`"
  | .unknownVariant name allowed => "unknown variant `" ++ name ++ "`, " ++ allowedText allowed
  | .refused r => r.readingMessage
  | .malformedInstant cause => cause.message

abbrev Reader (α : Type) := Json → Except ReadError α

abbrev Signed64 := { n : Int // -9223372036854775808 ≤ n ∧ n < 9223372036854775808 }

abbrev Unsigned64 := { n : Nat // n < 18446744073709551616 }

def readSigned64 : Reader Signed64
  | .integer n =>
    if h : -9223372036854775808 ≤ n ∧ n < 9223372036854775808 then .ok ⟨n, h⟩
    else .error (.invalidValue (.integer n) "i64")
  | v => .error (.invalidType v.found "i64")

def readUnsigned64 : Reader Unsigned64
  | .integer n =>
    if h : 0 ≤ n ∧ n < 18446744073709551616 then .ok ⟨n.toNat, by omega⟩
    else .error (.invalidValue (.integer n) "u64")
  | v => .error (.invalidType v.found "u64")

def readString : Reader String
  | .string s => .ok s
  | v => .error (.invalidType v.found "a string")

def decimalExpectation : String := "a Decimal type representing a fixed-point number"

/-- The decimal that a value denotes: a string by its text, a number by its plain digits. -/
def decimal? : Json → Option Decimal
  | .string s => (Decimal.parse s).toOption
  | .integer n => Decimal.ofParts? n 0
  | .float x => (Decimal.parse x.plainText).toOption
  | _ => none

def readDecimal : Reader Decimal
  | v =>
    match v, decimal? v with
    | _, some a => .ok a
    | .string s, none => .error (.invalidValue (.string s) decimalExpectation)
    | .integer n, none => .error (.invalidValue (.integer n) decimalExpectation)
    | .float x, none => .error (.invalidValue (.float x) decimalExpectation)
    | v, none => .error (.invalidType v.found decimalExpectation)

def readInstant : Reader Instant
  | .string s =>
    match Rfc3339.parse s with
    | .ok t => .ok t
    | .error cause => .error (.malformedInstant cause)
  | v => .error (.invalidType v.found "an RFC 3339 formatted date and time string")

/-- Reads a value of a restricted type through its raw type. -/
def readAccepted {α β : Type} (read : Reader α) (accept : α → Except Refusal β) : Reader β :=
  fun v => do
    match accept (← read v) with
    | .ok b => return b
    | .error r => throw (.refused r)

theorem readAccepted_eq_ok {α β : Type} {read : Reader α} {accept : α → Except Refusal β} {v : Json}
    {a : α} {b : β} (hr : read v = .ok a) (ha : accept a = .ok b) :
    readAccepted read accept v = .ok b := by
  simp [readAccepted, hr, ha, bind, Except.bind, pure, Except.pure]

def readVariant {α : Type} (all : List (String × α)) : Reader α
  | .string name => choose name
  | .object [(name, content)] => do
    let a ← choose name
    match content with
    | .null => return a
    | v => throw (.invalidType v.found "unit")
  | .object _ => .error (.invalidValue .map "map with a single key")
  | v => .error (.invalidType v.found "string or map")
where
  choose (name : String) : Except ReadError α :=
    match all.lookup name with
    | some a => .ok a
    | none => .error (.unknownVariant name (all.map (·.1)))

end Bookkeeping.Json
