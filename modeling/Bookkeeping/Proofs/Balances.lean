import Bookkeeping.Account
import Bookkeeping.Proofs.DecimalValue

/-! # Debits and credits by value

A debit fails if and only if the balance is smaller than the amount. A credit is not checked: it has
no result if and only if the exact sum rounds past the largest decimal.
-/
namespace Bookkeeping
open Bookkeeping.Time

namespace Decimal

variable {a b : Decimal}

theorem toRat_le_iff : a.toRat ≤ b.toRat ↔ a ≤ b := by
  have ha : (0 : ℚ) < pow10 a.scale := by exact_mod_cast pow10_pos a.scale
  have hb : (0 : ℚ) < pow10 b.scale := by exact_mod_cast pow10_pos b.scale
  rw [toRat_eq, toRat_eq, div_le_div_iff₀ ha hb, le_def]
  norm_cast

theorem toRat_pos_iff : 0 < a.toRat ↔ zero < a := by
  have ha : (0 : ℚ) < pow10 a.scale := by exact_mod_cast pow10_pos a.scale
  rw [toRat_eq, div_pos_iff_of_pos_right ha, zero_lt_iff]
  norm_cast

theorem toRat_nonneg_iff : 0 ≤ a.toRat ↔ zero ≤ a := by
  rw [← toRat_le_iff, toRat_eq_zero (a := zero) rfl]

theorem sub?_ne_none (hb : 0 < b.toRat) (hle : b.toRat ≤ a.toRat) : a.sub? b ≠ none := by
  intro hnone
  have hout := add?_eq_none_iff.mp hnone
  have habs : |a.toRat + (-b).toRat| ≤ |a.toRat| := by
    rw [toRat_neg, ← sub_eq_add_neg, abs_of_nonneg (sub_nonneg.mpr hle),
      abs_of_pos (hb.trans_le hle)]
    exact sub_le_self _ hb.le
  have hin := habs.trans a.abs_toRat_le
  exact absurd (hout.trans hin) (not_le.mpr (sub_lt_sub_left (by norm_num) _))

end Decimal

theorem Amount.toRat_pos (amount : Amount) : 0 < amount.value.toRat :=
  Decimal.toRat_pos_iff.mpr amount.pos

namespace Account

variable {a : Account} {amount : Amount} {now : Instant} {why : Failure}

theorem covers_iff : a.Covers amount ↔ amount.value.toRat ≤ a.balance.toRat :=
  Decimal.toRat_le_iff.symm

/-- An amount brings the balance of an account half a unit or more past the largest decimal. -/
def Overfills (amount : Amount) (a : Account) : Prop :=
  (Decimal.mantissaBound - 1 / 2 : ℚ) ≤ a.balance.toRat + amount.value.toRat

theorem debit_eq_error_iff : a.debited amount now = .error why ↔
    ¬a.Covers amount ∧ why = .rejected (.insufficientBalance a.id a.balance amount) := by
  rw [debited_eq]
  split
  · rename_i hcovers
    split
    · simp [hcovers]
    · rename_i hnone
      exact absurd hnone (Decimal.sub?_ne_none amount.toRat_pos (covers_iff.mp hcovers))
  · rename_i hcovers
    simp [hcovers, eq_comm]

theorem covers_iff_exists_debit (now : Instant) :
    a.Covers amount ↔ ∃ debited, a.debited amount now = .ok debited := by
  constructor
  · intro hcovers
    cases hdebit : a.debited amount now with
    | error why => exact absurd hcovers (debit_eq_error_iff.mp hdebit).1
    | ok debited => exact ⟨debited, rfl⟩
  · rintro ⟨debited, hdebit⟩
    by_contra hcovers
    rw [debit_eq_error_iff.mpr ⟨hcovers, rfl⟩] at hdebit
    cases hdebit

theorem add?_eq_none_iff : a.balance.add? amount.value = none ↔ a.Overfills amount := by
  have hpos := amount.toRat_pos
  have hlow : -(Decimal.mantissaBound - 1 : ℚ) ≤ a.balance.toRat :=
    (abs_le.mp a.balance.abs_toRat_le).1
  rw [Decimal.add?_eq_none_iff, Overfills, le_abs]
  constructor
  · rintro (h | h)
    · exact h
    · -- no balance is so low that an amount added to it stays below all decimals
      exfalso
      have hhalf : (1 / 2 : ℚ) < 1 := by norm_num
      have hsum : -(a.balance.toRat + amount.value.toRat) < Decimal.mantissaBound - 1 / 2 := by
        calc -(a.balance.toRat + amount.value.toRat)
            < -a.balance.toRat := neg_lt_neg (lt_add_of_pos_right _ hpos)
          _ ≤ Decimal.mantissaBound - 1 := neg_le.mp hlow
          _ < Decimal.mantissaBound - 1 / 2 := sub_lt_sub_left hhalf _
      exact absurd h (not_le.mpr hsum)
  · exact .inl

theorem credit_eq_error_iff : a.credited amount now = .error why ↔
    a.Overfills amount ∧ why = .overflow .balance := by
  rw [← add?_eq_none_iff, credited_eq]
  cases a.balance.add? amount.value <;> simp [eq_comm]

theorem not_overfills_iff_exists_credit (now : Instant) :
    ¬a.Overfills amount ↔ ∃ credited, a.credited amount now = .ok credited := by
  constructor
  · intro hfits
    cases hcredit : a.credited amount now with
    | error why => exact absurd (credit_eq_error_iff.mp hcredit).1 hfits
    | ok credited => exact ⟨credited, rfl⟩
  · rintro ⟨credited, hcredit⟩ hover
    rw [credit_eq_error_iff.mpr ⟨hover, rfl⟩] at hcredit
    cases hcredit

end Account

end Bookkeeping
