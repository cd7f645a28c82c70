import Bookkeeping.Json.Basic

/-! # JSON read from text

A reader of whole texts. Integers from −2^63 to below 2^64 stay integers; all other numbers are
floating point. Values nest to a depth of 127.
-/
namespace Bookkeeping.Json.Parser
open Bookkeeping.Text

/-- The characters of a text that are left after a value. -/
abbrev Rest := List Char

def skipBlanks (cs : Rest) : Rest :=
  cs.dropWhile fun c => c == ' ' || c == '\t' || c == '\n' || c == '\r'

def literal? : List Char → Rest → Option Rest
  | [], cs => some cs
  | _ :: _, [] => none
  | c :: word, d :: cs => if c = d then literal? word cs else none

def hexDigit? (c : Char) : Option Nat :=
  if '0' ≤ c ∧ c ≤ '9' then some (c.toNat - '0'.toNat)
  else if 'a' ≤ c ∧ c ≤ 'f' then some (c.toNat - 'a'.toNat + 10)
  else if 'A' ≤ c ∧ c ≤ 'F' then some (c.toNat - 'A'.toNat + 10)
  else none

def codeUnit? : Rest → Option (Nat × Rest)
  | a :: b :: c :: d :: cs => do
    let a ← hexDigit? a
    let b ← hexDigit? b
    let c ← hexDigit? c
    let d ← hexDigit? d
    return (((a * 16 + b) * 16 + c) * 16 + d, cs)
  | _ => none

def ofSurrogates (high low : Nat) : Char :=
  Char.ofNat (0x10000 + (high - 0xD800) * 0x400 + (low - 0xDC00))

/-- Reads a character by code units; a surrogate stands only in a pair. -/
def escapedUnit? (cs : Rest) : Option (Char × Rest) := do
  let (unit, cs) ← codeUnit? cs
  if 0xD800 ≤ unit ∧ unit < 0xDC00 then
    let cs ← literal? ['\\', 'u'] cs
    let (low, cs) ← codeUnit? cs
    if 0xDC00 ≤ low ∧ low < 0xE000 then return (ofSurrogates unit low, cs) else none
  else if 0xDC00 ≤ unit ∧ unit < 0xE000 then none
  else return (Char.ofNat unit, cs)

def escape? : Rest → Option (Char × Rest)
  | '"' :: cs => some ('"', cs)
  | '\\' :: cs => some ('\\', cs)
  | '/' :: cs => some ('/', cs)
  | 'b' :: cs => some ('\x08', cs)
  | 'f' :: cs => some ('\x0c', cs)
  | 'n' :: cs => some ('\n', cs)
  | 'r' :: cs => some ('\r', cs)
  | 't' :: cs => some ('\t', cs)
  | 'u' :: cs => escapedUnit? cs
  | _ => none

/-- Reads a string after its opening quote; `seen` holds its characters in reverse. -/
def string? : Nat → List Char → Rest → Option (String × Rest)
  | 0, _, _ => none
  | _ + 1, _, [] => none
  | fuel + 1, seen, c :: cs =>
    if c = '"' then some (String.ofList seen.reverse, cs)
    else if c = '\\' then do
      let (d, cs) ← escape? cs
      string? fuel (d :: seen) cs
    else if c.toNat < 0x20 then none
    else string? fuel (c :: seen) cs

def digits (cs : Rest) : List Char × Rest :=
  (cs.takeWhile (digit? · |>.isSome), cs.dropWhile (digit? · |>.isSome))

def value (digits : List Char) : Nat :=
  digits.foldl (fun n c => n * 10 + (digit? c).getD 0) 0

def exponent? : Rest → Option (Option Int × Rest)
  | c :: cs =>
    if c = 'e' ∨ c = 'E' then
      let (negative, cs) :=
        match cs with
        | '-' :: cs => (true, cs)
        | '+' :: cs => (false, cs)
        | cs => (false, cs)
      match digits cs with
      | ([], _) => none
      | (ds, cs) => some (some (if negative then -(value ds : Int) else value ds), cs)
    else some (none, c :: cs)
  | [] => some (none, [])

def fraction? : Rest → Option (List Char × Rest)
  | '.' :: cs =>
    match digits cs with
    | ([], _) => none
    | (ds, cs) => some (ds, cs)
  | cs => some ([], cs)

/-- Digits in front whose number is below 2^64, and how many are left over. -/
def leadingDigits : Nat → List Char → Nat × Nat
  | n, [] => (n, 0)
  | n, c :: cs =>
    let next := n * 10 + (digit? c).getD 0
    if next < 18446744073709551616 then leadingDigits next cs else (n, cs.length + 1)

/-- The floating point number of digits and an exponent. Digits past 64 bits carry no value. -/
def float? (negative : Bool) (whole fraction : List Char) (exponent : Int) : Option Json := do
  let (significand, dropped) := leadingDigits 0 (whole ++ fraction)
  let x ← Binary64.ofDigits? negative significand (exponent - fraction.length + dropped)
  return .float x

def classify (negative : Bool) (whole fraction : List Char) (exponent : Option Int) :
    Option Json :=
  let n := value whole
  match fraction, exponent with
  | [], none =>
    if negative then
      if n = 0 then some (.float (.zero true))
      else if n ≤ 9223372036854775808 then some (.integer (-n))
      else float? negative whole [] 0
    else if n < 18446744073709551616 then some (.integer n)
    else float? negative whole [] 0
  | _, _ => float? negative whole fraction (exponent.getD 0)

/-- Reads a number after its sign. A zero in front stands alone. -/
def number? (negative : Bool) (cs : Rest) : Option (Json × Rest) := do
  let (whole, cs) := digits cs
  if whole.isEmpty ∨ (whole.head? = some '0' ∧ 1 < whole.length) then none
  let (fraction, cs) ← fraction? cs
  let (exponent, cs) ← exponent? cs
  let number ← classify negative whole fraction exponent
  return (number, cs)

mutual

def value? : Nat → Nat → Rest → Option (Json × Rest)
  | 0, _, _ => none
  | fuel + 1, depth, cs =>
    match skipBlanks cs with
    | 'n' :: cs => do return (.null, ← literal? ['u', 'l', 'l'] cs)
    | 't' :: cs => do return (.bool true, ← literal? ['r', 'u', 'e'] cs)
    | 'f' :: cs => do return (.bool false, ← literal? ['a', 'l', 's', 'e'] cs)
    | '"' :: cs => do
      let (s, cs) ← string? (cs.length + 1) [] cs
      return (.string s, cs)
    | '[' :: cs =>
      match depth, skipBlanks cs with
      | 0, _ => none
      | _, ']' :: cs => some (.array [], cs)
      | depth + 1, cs => do
        let (items, cs) ← items? fuel depth cs
        return (.array items, cs)
    | '\x7b' :: cs =>
      match depth, skipBlanks cs with
      | 0, _ => none
      | _, '\x7d' :: cs => some (.object [], cs)
      | depth + 1, cs => do
        let (members, cs) ← members? fuel depth cs
        return (ofMembers members, cs)
    | '-' :: cs => number? true cs
    | cs => number? false cs

def items? : Nat → Nat → Rest → Option (List Json × Rest)
  | 0, _, _ => none
  | fuel + 1, depth, cs => do
    let (v, cs) ← value? fuel depth cs
    match skipBlanks cs with
    | ']' :: cs => return ([v], cs)
    | ',' :: cs =>
      let (vs, cs) ← items? fuel depth cs
      return (v :: vs, cs)
    | _ => none

def members? : Nat → Nat → Rest → Option (Members × Rest)
  | 0, _, _ => none
  | fuel + 1, depth, cs =>
    match skipBlanks cs with
    | '"' :: cs => do
      let (name, cs) ← string? (cs.length + 1) [] cs
      let cs ← literal? [':'] (skipBlanks cs)
      let (v, cs) ← value? fuel depth cs
      match skipBlanks cs with
      | '\x7d' :: cs => return ([(name, v)], cs)
      | ',' :: cs =>
        let (rest, cs) ← members? fuel depth cs
        return ((name, v) :: rest, cs)
      | _ => none
    | _ => none

end

def maxDepth : Nat := 127

def parse? (s : String) : Option Json := do
  let cs := s.toList
  let (v, rest) ← value? (2 * cs.length + 2) maxDepth cs
  if (skipBlanks rest).isEmpty then return v else none

end Bookkeeping.Json.Parser
