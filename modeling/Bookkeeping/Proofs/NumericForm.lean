import Bookkeeping.Proofs.DecimalValue
import Bookkeeping.Sql.Numeric
import Mathlib.Data.Nat.Digits.Defs

/-! # Decimals in groups of digits

A decimal is sent in groups of four digits, and read by adding the groups up. What the first groups add up
to is the decimal cut off at some digit, which is a decimal as well; so no sum on the way is rounded. The
scale that goes with the groups brings the mantissa back. Zero has no groups and comes back without scale.
-/
namespace Bookkeeping
namespace Decimal

theorem toRat_eq_units (a : Decimal) : a.toRat = a.units maxScale / pow10 maxScale :=
  a.toRat_rescale a.scale_le

theorem units_eq_iff {a b : Decimal} : a.units maxScale = b.units maxScale ↔ a.toRat = b.toRat := by
  rw [toRat_eq_units, toRat_eq_units, div_left_inj' (pow10_ne_zero maxScale)]
  exact Int.cast_inj.symm

theorem exists_add? {a b c : Decimal} (h : c.units maxScale = a.units maxScale + b.units maxScale) :
    ∃ r, a.add? b = some r ∧ r.units maxScale = c.units maxScale := by
  have hsum : c.toRat = a.toRat + b.toRat := by
    simp only [toRat_eq_units, h]
    push_cast
    ring
  cases hr : a.add? b with
  | none =>
    have hfar := add?_eq_none_iff.mp hr
    have hnear := c.abs_toRat_le
    rw [← hsum] at hfar
    have hhalf : (1 : ℚ) / 2 < 1 := by norm_num
    exact absurd (hfar.trans hnear) (not_le.mpr (sub_lt_sub_left hhalf _))
  | some r => exact ⟨r, rfl, units_eq_iff.mpr (((rounds_of_add? hr).exact ⟨c, hsum⟩).trans hsum.symm)⟩

end Decimal

namespace Sql.Numeric
open Decimal

/-! ## Moving to a scale -/

/-- A mantissa with zeros appended until its last group is full. -/
def aligned (m scale : ℕ) : ℕ := m * pow10 (4 * fractionGroups scale - scale)

end Sql.Numeric
end Bookkeeping
