import Bookkeeping.Json.Basic

/-! # JSON as text

Values are written without blanks. Within strings only the quote, the backslash and control
characters are escaped.
-/
namespace Bookkeeping.Json
open Bookkeeping.Text

/-- A control character by its code point in four hexadecimal digits. -/
def controlEscape (c : Char) : String :=
  let digits := Nat.toDigits 16 c.toNat
  "\\u" ++ String.ofList (List.replicate (4 - digits.length) '0' ++ digits)

def stringChar (c : Char) : String :=
  match c with
  | '"' => "\\\""
  | '\\' => "\\\\"
  | _ => if c.toNat < 0x20 then controlEscape c else c.toString

def stringText (s : String) : String :=
  "\"" ++ s.foldl (fun out c => out ++ stringChar c) "" ++ "\""

mutual

def text : Json → String
  | .null => "null"
  | .bool true => "true"
  | .bool false => "false"
  | .integer n => integerText n
  | .float x => x.text
  | .string s => stringText s
  | .array items => "[" ++ itemsText items ++ "]"
  | .object members => "\x7b" ++ membersText members ++ "\x7d"

def itemsText : List Json → String
  | [] => ""
  | [v] => text v
  | v :: rest => text v ++ "," ++ itemsText rest

def membersText : List (String × Json) → String
  | [] => ""
  | [(name, v)] => stringText name ++ ":" ++ text v
  | (name, v) :: rest => stringText name ++ ":" ++ text v ++ "," ++ membersText rest

end

end Bookkeeping.Json
