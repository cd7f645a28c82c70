import Bookkeeping.PowerOfTen

/-! # Decimals

A decimal is a mantissa of at most 96 bits over a power of ten from 10^0 to 10^28. The scale is
part of the value: it fixes the digits shown after the point. Order is numeric.
-/
namespace Bookkeeping

/-- Mantissas stay below this bound, the 96th power of two. -/
abbrev Decimal.mantissaBound : Nat := 79228162514264337593543950336

abbrev Decimal.maxScale : Nat := 28

/-- A signed mantissa and the number of its digits after the point. -/
structure Decimal where
  mantissa : Int
  scale : Nat
  mantissa_lt : mantissa.natAbs < Decimal.mantissaBound
  scale_le : scale ≤ Decimal.maxScale
  deriving DecidableEq

namespace Decimal

@[ext] theorem ext {a b : Decimal} (hm : a.mantissa = b.mantissa) (hs : a.scale = b.scale) :
    a = b := by
  cases a; cases b; simp_all

def ofParts? (mantissa : Int) (scale : Nat) : Option Decimal :=
  if h : mantissa.natAbs < mantissaBound ∧ scale ≤ maxScale then
    some ⟨mantissa, scale, h.1, h.2⟩
  else none

theorem ofParts?_eq_some_iff {m : Int} {s : Nat} {d : Decimal} :
    ofParts? m s = some d ↔ m = d.mantissa ∧ s = d.scale := by
  unfold ofParts?
  split
  · simp only [Option.some.injEq]
    exact ⟨fun h => h ▸ ⟨rfl, rfl⟩, fun h => Decimal.ext h.1 h.2⟩
  · rename_i h
    simp only [reduceCtorEq, false_iff]
    rintro ⟨rfl, rfl⟩
    exact h ⟨d.mantissa_lt, d.scale_le⟩

def zero : Decimal := ⟨0, 0, by decide, by decide⟩

instance : Inhabited Decimal := ⟨zero⟩

/-- Numeric order, decided by cross multiplication. -/
instance : LT Decimal where
  lt a b := a.mantissa * pow10 b.scale < b.mantissa * pow10 a.scale

instance : LE Decimal where
  le a b := a.mantissa * pow10 b.scale ≤ b.mantissa * pow10 a.scale

instance : HasEquiv Decimal where
  Equiv a b := a.mantissa * pow10 b.scale = b.mantissa * pow10 a.scale

theorem lt_def {a b : Decimal} :
    a < b ↔ a.mantissa * pow10 b.scale < b.mantissa * pow10 a.scale := Iff.rfl

theorem le_def {a b : Decimal} :
    a ≤ b ↔ a.mantissa * pow10 b.scale ≤ b.mantissa * pow10 a.scale := Iff.rfl

theorem equiv_def {a b : Decimal} :
    a ≈ b ↔ a.mantissa * pow10 b.scale = b.mantissa * pow10 a.scale := Iff.rfl

instance (a b : Decimal) : Decidable (a < b) := decidable_of_iff _ lt_def.symm

instance (a b : Decimal) : Decidable (a ≤ b) := decidable_of_iff _ le_def.symm

instance (a b : Decimal) : Decidable (a ≈ b) := decidable_of_iff _ equiv_def.symm

theorem not_lt {a b : Decimal} : ¬ a < b ↔ b ≤ a := by
  rw [lt_def, le_def]; omega

theorem zero_lt_iff {a : Decimal} : zero < a ↔ 0 < a.mantissa := by
  rw [lt_def]
  simp [zero]

theorem zero_le_iff {a : Decimal} : zero ≤ a ↔ 0 ≤ a.mantissa := by
  rw [le_def]
  simp [zero]

end Decimal

end Bookkeeping
