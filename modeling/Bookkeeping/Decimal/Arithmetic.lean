import Bookkeeping.Decimal.Basic

/-! # Sums and differences

A zero operand leaves the other one as it is. Otherwise the sum is exact at the larger of the two
scales; if it does not fit there, its scale is lowered to the largest one at which the rounded
value fits, halves going to the even neighbour. No scale fits: there is no sum.
-/
namespace Bookkeeping.Decimal

/-- A quotient rounded to the nearest whole number, halves to the even one. -/
def divHalfEven (n d : Nat) : Nat :=
  if 2 * (n % d) < d ∨ (2 * (n % d) = d ∧ n / d % 2 = 0) then n / d else n / d + 1

/-- A quotient rounded to the nearest whole number, halves upwards. -/
def divHalfUp (n d : Nat) : Nat :=
  if 2 * (n % d) < d then n / d else n / d + 1

/-- Rounds an integer after dropping its last digits, by a rule for natural numbers. -/
def dropDigits (round : Nat → Nat → Nat) (m : Int) (count : Nat) : Int :=
  m.sign * round m.natAbs (pow10 count)

/-- The value at the largest scale, up to the given one, at which it fits. -/
def fit? (m : Int) (scale : Nat) : Option Decimal :=
  (List.range (scale + 1)).findSome? fun dropped =>
    ofParts? (dropDigits divHalfEven m dropped) (scale - dropped)

def sumMantissa (a b : Decimal) : Int :=
  a.mantissa * pow10 (max a.scale b.scale - a.scale) +
    b.mantissa * pow10 (max a.scale b.scale - b.scale)

def neg (a : Decimal) : Decimal :=
  ⟨-a.mantissa, a.scale, by simpa using a.mantissa_lt, a.scale_le⟩

instance : Neg Decimal := ⟨neg⟩

@[simp] theorem mantissa_neg (a : Decimal) : (-a).mantissa = -a.mantissa := rfl

@[simp] theorem scale_neg (a : Decimal) : (-a).scale = a.scale := rfl

def add? (a b : Decimal) : Option Decimal :=
  if a.mantissa = 0 then some b
  else if b.mantissa = 0 then some a
  else fit? (sumMantissa a b) (max a.scale b.scale)

def sub? (a b : Decimal) : Option Decimal := add? a (-b)

end Bookkeeping.Decimal
