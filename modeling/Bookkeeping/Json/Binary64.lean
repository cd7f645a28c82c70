import Bookkeeping.Decimal.Arithmetic
import Bookkeeping.Text.Natural

/-! # Binary floating point numbers

Numbers `significand * 2 ^ exponent` with 53 significant bits, as data formats carry them. They are
read from decimal digits by one rounded product or quotient, and written with the fewest digits
that no other such number is nearer to.
-/
namespace Bookkeeping.Json
open Bookkeeping.Text

/-- A finite number of 53 significant bits. -/
structure Binary64 where
  negative : Bool
  significand : Nat
  exponent : Int
  deriving DecidableEq, Repr

namespace Binary64

def minExponent : Int := -1074

def maxExponent : Int := 971

def leastNormal : Nat := 4503599627370496

def zero (negative : Bool) : Binary64 := ⟨negative, 0, minExponent⟩

def scaled (num den : Nat) (shift : Int) : Nat × Nat :=
  (num <<< shift.toNat, den <<< (-shift).toNat)

/-- The exponent at which a quotient has 53 bits before the point, if that is not too small. -/
def quotientExponent (num den : Nat) : Int :=
  let guess : Int := (Nat.log2 num : Int) - Nat.log2 den - 52
  let (n, d) := scaled num den (-guess)
  max minExponent (if n < leastNormal * d then guess - 1 else guess)

/-- The nearest number to a quotient, halves to the even significand; none past the range. -/
def ofQuotient? (negative : Bool) (num den : Nat) : Option Binary64 :=
  if num = 0 then some (zero negative)
  else
    let exponent := quotientExponent num den
    let (n, d) := scaled num den (-exponent)
    let significand := Decimal.divHalfEven n d
    let (significand, exponent) :=
      if significand = 2 * leastNormal then (leastNormal, exponent + 1) else (significand, exponent)
    if maxExponent < exponent then none else some ⟨negative, significand, exponent⟩

def magnitude (x : Binary64) : Nat × Nat := scaled x.significand 1 x.exponent

/-- The product or quotient of a number and a power of ten that is itself rounded first. -/
def timesPower? (x : Binary64) (power : Int) : Option Binary64 := do
  let factor ← ofQuotient? false (pow10 power.natAbs) 1
  let (n, d) := x.magnitude
  let (m, e) := factor.magnitude
  if 0 ≤ power then ofQuotient? x.negative (n * m) (d * e)
  else ofQuotient? x.negative (n * e) (d * m)

def maxPower : Nat := 308

/-- The number `significand * 10 ^ power`. Powers past the range are taken in two steps. -/
def ofDigits? (negative : Bool) (significand : Nat) (power : Int) : Option Binary64 := do
  let x ← ofQuotient? negative significand 1
  if x.significand = 0 then return x
  if power.natAbs ≤ maxPower then x.timesPower? power
  else if 0 ≤ power then none
  else
    let y ← x.timesPower? (-maxPower)
    if power.natAbs ≤ 2 * maxPower then y.timesPower? (power + maxPower)
    else return zero negative

structure Digits where
  digits : Nat
  power : Int

/-- The numbers that round to `x`, with a common denominator: lower end, value, upper end. -/
def interval (x : Binary64) : (Nat × Nat × Nat) × Nat :=
  let (n, d) := scaled 1 4 x.exponent
  let below := if x.significand = leastNormal ∧ minExponent < x.exponent then 1 else 2
  ((n * (4 * x.significand - below), n * (4 * x.significand), n * (4 * x.significand + 2)), d)

def leadingPower (num den : Nat) : Int :=
  (Nat.toDigits 10 (num * pow10 400 / den)).length - 401

/-- The neighbour of `x` among the multiples of `10 ^ power` that rounds to `x`, the nearer of two. -/
def onGrid? (x : Binary64) (power : Int) : Option Digits :=
  let ((low, value, high), den) := x.interval
  let den := den * pow10 power.toNat
  let up (n : Nat) := n * pow10 (-power).toNat
  let even := x.significand % 2 = 0
  let fits (c : Nat) := up low < c * den ∧ c * den < up high ∨
    even ∧ (c * den = up low ∨ c * den = up high)
  let c := up value / den
  let gapBelow := up value - c * den
  let gapAbove := (c + 1) * den - up value
  if fits c ∧ (¬fits (c + 1) ∨ gapBelow < gapAbove ∨ (gapBelow = gapAbove ∧ c % 2 = 0)) then
    some ⟨c, power⟩
  else if fits (c + 1) then some ⟨c + 1, power⟩
  else none

def Digits.strip : Nat → Digits → Digits
  | 0, r => r
  | fuel + 1, r =>
    if r.digits ≠ 0 ∧ r.digits % 10 = 0 then strip fuel ⟨r.digits / 10, r.power + 1⟩ else r

/-- The fewest digits that round to `x`; seventeen always suffice. -/
def shortest (x : Binary64) : Digits :=
  if x.significand = 0 then ⟨0, 0⟩
  else
    let (num, den) := x.magnitude
    let leading := leadingPower num den
    let found := (List.range 17).findSome? fun (count : Nat) => x.onGrid? (leading - count)
    Digits.strip 20 (found.getD ⟨x.significand, x.exponent⟩)

def signText (x : Binary64) : String := if x.negative then "-" else ""

def Digits.plain (r : Digits) : String :=
  if 0 ≤ r.power then naturalText (r.digits * pow10 r.power.toNat)
  else
    let places := (-r.power).toNat
    naturalText (r.digits / pow10 places) ++ "." ++ paddedText places (r.digits % pow10 places)

def plainText (x : Binary64) : String := x.signText ++ x.shortest.plain

def exponentText (n : Int) : String :=
  (if n < 0 then "e-" else "e+") ++ paddedText 2 n.natAbs

def Digits.scientific (r : Digits) : String :=
  match Nat.toDigits 10 r.digits with
  | [] => "0"
  | [d] => String.ofList [d] ++ exponentText r.power
  | d :: rest =>
    String.ofList (d :: '.' :: rest) ++ exponentText (r.power + rest.length)

/-- The written form: without exponent from 10^-5 up to below 10^16, always with a point or an
exponent. -/
def text (x : Binary64) : String :=
  let r := x.shortest
  let leading := r.power + (Nat.toDigits 10 r.digits).length - 1
  x.signText ++
    if r.digits = 0 ∨ (-5 ≤ leading ∧ leading ≤ 15) then
      if 0 ≤ r.power then r.plain ++ ".0" else r.plain
    else r.scientific

end Binary64

end Bookkeeping.Json
