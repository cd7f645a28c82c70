import Bookkeeping.Json.Reading

/-! # Amounts

An amount is a decimal greater than zero. Its scale is kept; equality of value is `≈`.
-/
namespace Bookkeeping
open Bookkeeping.Json

structure Amount where
  value : Decimal
  pos : Decimal.zero < value
  deriving DecidableEq

namespace Amount

@[ext] theorem ext {a b : Amount} (h : a.value = b.value) : a = b := by
  cases a; cases b; simp_all

def subject : String := "Amount"

def accept (d : Decimal) : Except Refusal Amount :=
  if h : Decimal.zero < d then .ok ⟨d, h⟩ else .error ⟨subject, .predicate⟩

theorem accept_value (a : Amount) : accept a.value = .ok a := by
  simp [accept, a.pos]

/-- Equal numbers, whatever their scales. -/
instance : HasEquiv Amount where
  Equiv a b := a.value ≈ b.value

instance (a b : Amount) : Decidable (a ≈ b) := inferInstanceAs (Decidable (a.value ≈ b.value))

def text (a : Amount) : String := a.value.text

instance : ToString Amount := ⟨text⟩

/-- The amount as data, a string so that no digit is lost. -/
def toJson (a : Amount) : Json := .string a.text

def ofJson : Reader Amount := readAccepted readDecimal accept

end Amount

end Bookkeeping
