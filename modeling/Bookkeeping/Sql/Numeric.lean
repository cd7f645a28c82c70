import Bookkeeping.Decimal.Text

/-! # Exact numbers as a database sends them

Groups of four decimal digits, the power of 10000 of the first group, and the number of digits to
show after the point. Zero has no groups. A number is read by adding its groups up as decimals, so
that it is refused only if some step of that has no decimal.
-/
namespace Bookkeeping.Sql

/-- An exact number in groups of four digits. -/
structure Numeric where
  negative : Bool
  groups : List Nat
  weight : Int
  scale : Nat
  deriving DecidableEq, Repr

namespace Numeric

/-- The groups of a number from the first to the last; `fuel` bounds their count. -/
def split : Nat → Nat → List Nat → List Nat
  | 0, _, tail => tail
  | fuel + 1, n, tail => if n = 0 then tail else split fuel (n / 10000) (n % 10000 :: tail)

def strip (groups : List Nat) : List Nat := (groups.reverse.dropWhile (· == 0)).reverse

def fractionGroups (scale : Nat) : Nat := (scale + 3) / 4

def ofParts (negative : Bool) (mantissa scale : Nat) : Numeric :=
  let aligned := mantissa * pow10 (4 * fractionGroups scale - scale)
  let groups := split (aligned.log2 + 1) aligned []
  if mantissa = 0 then ⟨false, [], 0, 0⟩
  else ⟨negative, strip groups, (groups.length : Int) - 1 - fractionGroups scale, scale⟩

def ofDecimal (d : Decimal) : Numeric := ofParts (d.mantissa < 0) d.mantissa.natAbs d.scale

def mantissa (x : Numeric) : Nat :=
  let value := x.groups.foldl (fun n g => n * 10000 + g) 0
  let power := 4 * (x.weight + 1 - x.groups.length) + x.scale
  value * pow10 power.toNat / pow10 (-power).toNat

def text (x : Numeric) : String :=
  (if x.negative then "-" else "") ++ Decimal.digitsText x.scale x.mantissa

def parse? (s : String) : Option Numeric := do
  let (negative, cs) := Decimal.splitSign s.toList
  let whole := cs.takeWhile (· != '.')
  let fraction := (cs.dropWhile (· != '.')).drop 1
  let digits := whole ++ fraction
  if digits.isEmpty ∨ digits.any fun c => (Text.digit? c).isNone then none
  let mantissa := digits.foldl (fun n c => n * 10 + (Text.digit? c).getD 0) 0
  return ofParts negative mantissa fraction.length

def groupDecimal? (group : Nat) (weight : Int) : Option Decimal :=
  if 8 ≤ weight.natAbs then none
  else if group = 0 then some .zero
  else if 0 ≤ weight then Decimal.ofParts? (group * pow10 (4 * weight.toNat)) 0
  else Decimal.ofParts? group (4 * (-weight).toNat)

/-- Adds groups to a decimal from a weight downwards. -/
def sum? : Decimal → Int → List Nat → Option Decimal
  | total, _, [] => some total
  | total, weight, group :: rest => do
    let part ← groupDecimal? group weight
    let total ← total.add? part
    sum? total (weight - 1) rest

/-- Raises the scale as long as the mantissa fits; `steps` are wanted at most. -/
def raiseScale : Nat → Decimal → Decimal
  | 0, d => d
  | steps + 1, d =>
    match Decimal.ofParts? (d.mantissa * 10) (d.scale + 1) with
    | some e => raiseScale steps e
    | none => d

/-- Moves to another scale, rounding half away from zero if it is smaller. -/
def rescale (d : Decimal) (scale : Nat) : Decimal :=
  if d.scale ≤ scale then raiseScale (scale - d.scale) d
  else
    (Decimal.ofParts? (Decimal.dropDigits Decimal.divHalfUp d.mantissa (d.scale - scale))
      scale).getD d

def decimal? (x : Numeric) : Option Decimal := do
  let total ← sum? .zero x.weight x.groups
  if x.groups.isEmpty then return .zero
  return rescale (if x.negative then -total else total) x.scale

end Numeric

end Bookkeeping.Sql
