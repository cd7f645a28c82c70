import Bookkeeping.Decimal.Arithmetic
import Bookkeeping.Text.Natural

/-! # Decimals as text

A decimal is written with exactly as many digits after the point as its scale says. Reading accepts
more: a sign, underscores between digits, digits past the capacity after the point (they round),
and an exponent.
-/
namespace Bookkeeping.Decimal
open Bookkeeping.Text

/-- Digits with a point before the last `scale` of them. -/
def digitsText (scale n : Nat) : String :=
  if scale = 0 then naturalText n
  else naturalText (n / pow10 scale) ++ "." ++ paddedText scale (n % pow10 scale)

def text (a : Decimal) : String :=
  if a.mantissa < 0 then "-" ++ digitsText a.scale a.mantissa.natAbs
  else digitsText a.scale a.mantissa.natAbs

instance : ToString Decimal := ⟨text⟩

inductive TextError where
  | empty
  | noDigits
  | twoPoints
  | leadingSeparator
  | unknownCharacter
  | tooManyDigits
  | roundedOver
  | badExponent
  | largeExponent (exponent : Nat)
  | tooLarge
  deriving DecidableEq, Repr

def TextError.message : TextError → String
  | .empty => "Invalid decimal: empty"
  | .noDigits => "Invalid decimal: no digits found"
  | .twoPoints => "Invalid decimal: two decimal points"
  | .leadingSeparator => "Invalid decimal: must start lead with a number"
  | .unknownCharacter => "Invalid decimal: unknown character"
  | .tooManyDigits => "Invalid decimal: overflow from too many digits"
  | .roundedOver => "Invalid decimal: overflow from mantissa after rounding"
  | .badExponent => "Failed to parse"
  | .largeExponent n =>
    "Scale exceeds the maximum precision allowed: " ++ naturalText n ++ " > 28"
  | .tooLarge => "Number exceeds maximum value that can be represented."

/-- What has been read of a decimal without sign or exponent. -/
structure Scan where
  mantissa : Nat := 0
  scale : Nat := 0
  point : Bool := false
  digits : Bool := false
  /-- The mantissa came near 64 bits while the scale was below its limit. -/
  wide : Bool := false

/-- A mantissa from here on counts as near 64 bits. -/
def wideBound : Nat := 1844674407370954906

namespace Scan

def push (s : Scan) (d : Nat) : Scan :=
  let mantissa := s.mantissa * 10 + d
  let scale := if s.point then s.scale + 1 else s.scale
  { s with mantissa, scale, digits := true
           wide := s.wide || (wideBound ≤ mantissa && scale < maxScale) }

def HasRoom (s : Scan) (d : Nat) : Prop :=
  s.mantissa * 10 + d < mantissaBound ∧ ¬(s.point ∧ s.scale = maxScale)

instance (s : Scan) (d : Nat) : Decidable (s.HasRoom d) := inferInstanceAs (Decidable (_ ∧ _))

/-- The mantissa and scale after the rounding digit. -/
def rounded (s : Scan) (d : Nat) : Except TextError (Nat × Nat) :=
  if d < 5 then .ok (s.mantissa, s.scale)
  else if s.mantissa + 1 < mantissaBound then .ok (s.mantissa + 1, s.scale)
  else if s.scale = 0 then .error .roundedOver
  else .ok ((s.mantissa + 1 + 4) / 10, s.scale - 1)

/-- Characters after the rounding digit carry no value. -/
def checkTail : List Char → Except TextError Unit
  | [] => .ok ()
  | c :: rest =>
    if (digit? c).isSome || c = '_' then checkTail rest
    else if c = '.' then .error .twoPoints
    else .error .unknownCharacter

def finish (s : Scan) (d : Nat) (rest : List Char) : Except TextError (Nat × Nat) := do
  let result ← s.rounded d
  checkTail rest
  return result

def run (s : Scan) : List Char → Except TextError (Nat × Nat)
  | [] => if s.digits then .ok (s.mantissa, s.scale) else .error .noDigits
  | c :: rest =>
    match digit? c with
    | some d =>
      if s.HasRoom d then run (s.push d) rest
      else if s.point then s.finish d rest
      else .error .tooManyDigits
    | none =>
      if c = '.' then
        if s.point then .error .twoPoints else run { s with point := true } rest
      else if c = '_' then
        if !s.digits then .error .leadingSeparator
        else if s.point && s.scale == maxScale && !s.wide then s.finish 0 rest
        else run s rest
      else .error .unknownCharacter

end Scan

/-- Splits off a sign; `true` stands for minus. -/
def splitSign : List Char → Bool × List Char
  | '-' :: rest => (true, rest)
  | '+' :: rest => (false, rest)
  | cs => (false, cs)

def signed (negative : Bool) (n : Nat) : Int := if negative then -(n : Int) else n

def parsePlain (cs : List Char) : Except TextError Decimal := do
  if cs.isEmpty then throw .empty
  let (negative, digits) := splitSign cs
  let (mantissa, scale) ← ({} : Scan).run digits
  match ofParts? (signed negative mantissa) scale with
  | some a => return a
  | none => throw .tooLarge

/-- Divides by a power of ten: the scale grows, at most to its limit, rounding half away from zero. -/
def shiftDown (a : Decimal) (n : Nat) : Except TextError Decimal :=
  if maxScale < n then .error (.largeExponent n)
  else
    let moved :=
      if a.scale + n ≤ maxScale then ofParts? a.mantissa (a.scale + n)
      else ofParts? (dropDigits divHalfUp a.mantissa (a.scale + n - maxScale)) maxScale
    moved.elim (.error .tooLarge) .ok

/-- Multiplies by a power of ten: the scale falls, and below zero the mantissa grows. -/
def shiftUp (a : Decimal) (n : Nat) : Except TextError Decimal :=
  if n ≤ a.scale then (ofParts? a.mantissa (a.scale - n)).elim (.error .tooLarge) .ok
  else if maxScale < n then .error (.largeExponent n)
  else (ofParts? (a.mantissa * pow10 (n - a.scale)) 0).elim (.error .tooLarge) .ok

/-- Exponents are 32-bit numbers. -/
def exponentLimit : Nat := 4294967295

def applyExponent (a : Decimal) : List Char → Except TextError Decimal
  | '-' :: digits =>
    match parseNatural exponentLimit digits with
    | .ok n => a.shiftDown n
    | .error _ => .error .badExponent
  | digits =>
    match parseNatural exponentLimit digits with
    | .ok n => a.shiftUp n
    | .error _ => .error .badExponent

def isExponentMark (c : Char) : Bool := c == 'e' || c == 'E'

def parseList (cs : List Char) : Except TextError Decimal :=
  match parsePlain cs with
  | .ok a => .ok a
  | .error cause =>
    match cs.dropWhile (!isExponentMark ·) with
    | [] => .error cause
    | _ :: exponent => do
      let base ← parsePlain (cs.takeWhile (!isExponentMark ·))
      applyExponent base exponent

def parse (s : String) : Except TextError Decimal := parseList s.toList

end Bookkeeping.Decimal
