import Bookkeeping.Proofs.Balances
import Bookkeeping.Proofs.Interleaving
import Mathlib.Algebra.Order.Floor.Ring
import Mathlib.Algebra.Order.Round
import Mathlib.Data.Rat.Floor

/-! # Bounds of debits and credits

A result that has to be rounded is rounded to the largest scale at which it fits, which may be smaller
than the scale of the balance before. A difference still never rounds past the balance that it was taken
from. A sum whose scale is lowered below that of the balance has grown past all mantissas at the next
larger scale, and the largest mantissa ends in a five, so that the sum rounds upwards.
-/
namespace Bookkeeping
open Bookkeeping.Time

namespace Decimal

variable {a b c d : Decimal} {m : ℤ} {s : ℕ} {x : ℚ}

/-! ## Rounding beside a decimal -/

theorem divHalfEven_le {n d q : ℕ} (hd : 0 < d) (h : n ≤ q * d) : divHalfEven n d ≤ q := by
  have hnear := (divHalfEven_near n hd).1
  by_contra hgt
  have hmul : (q + 1) * d ≤ divHalfEven n d * d := Nat.mul_le_mul_right d (by omega)
  rw [Nat.add_mul, Nat.one_mul] at hmul
  norm_cast at hnear
  omega

/-- A number between zero and a decimal does not round past it. -/
theorem toRat_le_of_fit? (h : fit? m s = some d) (hs : s ≤ maxScale) (ha : a.scale ≤ s) (hm : 0 ≤ m)
    (hle : (m / pow10 s : ℚ) ≤ a.toRat) : d.toRat ≤ a.toRat := by
  have hscale : a.scale ≤ d.scale := by
    have hunits : m ≤ a.mantissa * pow10 (s - a.scale) := by
      have hpos : (0 : ℚ) < pow10 s := by exact_mod_cast pow10_pos s
      have hle := hle
      rw [a.toRat_rescale ha, div_le_div_iff_of_pos_right hpos] at hle
      exact_mod_cast hle
    have hnat : m.natAbs ≤ a.mantissa.natAbs * pow10 (s - a.scale) := by
      rw [← Int.natAbs_natCast (pow10 (s - a.scale)), ← Int.natAbs_mul]
      omega
    have hfits : (dropDigits divHalfEven m (s - a.scale)).natAbs < mantissaBound := by
      rw [natAbs_dropDigits]
      exact (divHalfEven_le (pow10_pos _) hnat).trans_lt a.mantissa_lt
    have hkept := scale_le_of_fit? h hs hfits
    omega
  exact (rounds_of_fit? hs h).le_of_scale_le hscale hle

/-- A scale that was passed over has mantissas only up to a tenth of the next larger one. -/
theorem le_mantissa_of_scale_lt (h : fit? m s = some d) (hs : s ≤ maxScale) (hlt : d.scale < s) :
    mantissaBound ≤ 10 * d.mantissa.natAbs + 1 := by
  obtain ⟨k, hk, hscale, hmantissa, -⟩ := exists_of_fit? h
  obtain ⟨j, rfl⟩ : ∃ j, k = j + 1 := Nat.exists_eq_add_one.mpr (by omega)
  have hover : ¬divHalfEven m.natAbs (pow10 j) ≤ mantissaBound - 1 := by
    intro hle
    have hfits : (dropDigits divHalfEven m j).natAbs < mantissaBound := by
      rw [natAbs_dropDigits]
      exact hle.trans_lt (by decide)
    have hkept := scale_le_of_fit? h hs hfits
    omega
  rw [divHalfEven_le_iff (pow10_pos j) (by decide), Nat.not_lt] at hover
  have hnear : 2 * m.natAbs ≤ 2 * (d.mantissa.natAbs * (pow10 j * 10)) + pow10 j * 10 := by
    have hnear := (divHalfEven_near m.natAbs (pow10_pos (j + 1))).2
    rw [← natAbs_dropDigits, ← hmantissa, pow10_succ] at hnear
    exact_mod_cast hnear
  -- one more digit would have brought the mantissa to the bound
  have hmul : (2 * (mantissaBound - 1) + 1) * pow10 j ≤ (20 * d.mantissa.natAbs + 10) * pow10 j := by
    refine hover.trans (hnear.trans (le_of_eq ?_))
    ring
  have hle := Nat.le_of_mul_le_mul_right hmul (pow10_pos j)
  unfold mantissaBound at hle ⊢
  omega

theorem le_toRat_of_fit? (h : fit? m s = some d) (hs : s ≤ maxScale) (ha : a.scale ≤ s)
    (hzero : 0 ≤ a.toRat) (hle : a.toRat ≤ (m / pow10 s : ℚ)) : a.toRat ≤ d.toRat := by
  have hrounds := rounds_of_fit? hs h
  by_cases hscale : a.scale ≤ d.scale
  · exact hrounds.ge_of_scale_le hscale hle
  · have hd : 0 ≤ d.mantissa := zero_le_iff.mp (toRat_nonneg_iff.mp (hrounds.nonneg (hzero.trans hle)))
    have hbound := le_mantissa_of_scale_lt h hs (by omega)
    have hlt := a.mantissa_lt
    have hmantissa : a.mantissa ≤ 10 * d.mantissa := by omega
    obtain ⟨r, hr⟩ : ∃ r, a.scale = d.scale + 1 + r := Nat.exists_eq_add_of_le (by omega)
    have hone : (1 : ℤ) ≤ pow10 r := by exact_mod_cast pow10_pos r
    rw [toRat_le_iff, le_def, hr, pow10_add, pow10_succ]
    calc a.mantissa * pow10 d.scale
        ≤ 10 * d.mantissa * pow10 d.scale := mul_le_mul_of_nonneg_right hmantissa (by positivity)
      _ = 10 * d.mantissa * pow10 d.scale * 1 := (mul_one _).symm
      _ ≤ 10 * d.mantissa * pow10 d.scale * pow10 r := mul_le_mul_of_nonneg_left hone (by positivity)
      _ = d.mantissa * (pow10 d.scale * 10 * pow10 r : ℕ) := by push_cast; ring

/-! ## Sums and differences -/

theorem le_toRat_of_add? (h : a.add? b = some c) (ha : 0 ≤ a.toRat) (hb : 0 ≤ b.toRat) :
    a.toRat ≤ c.toRat := by
  unfold add? at h
  split at h
  · rename_i hzero
    cases h
    rwa [toRat_eq_zero hzero]
  split at h
  · cases h
    exact le_rfl
  · apply le_toRat_of_fit? h (max_le a.scale_le b.scale_le) (le_max_left _ _) ha
    rw [sumMantissa_div]
    exact le_add_of_nonneg_right hb

theorem toRat_le_of_sub? (h : a.sub? b = some c) (hb : 0 < b.toRat) (hle : b.toRat ≤ a.toRat) :
    c.toRat ≤ a.toRat := by
  have hvalue := sumMantissa_div a (-b)
  rw [toRat_neg, ← sub_eq_add_neg] at hvalue
  unfold sub? add? at h
  split at h
  · rename_i hzero
    rw [toRat_eq_zero hzero] at hle
    exact absurd (hb.trans_le hle) (lt_irrefl _)
  split at h
  · cases h
    exact le_rfl
  · have hpos : (0 : ℚ) < pow10 (max a.scale (-b).scale) := by exact_mod_cast pow10_pos _
    have hnonneg : (0 : ℚ) ≤ sumMantissa a (-b) := by
      have hquotient : (0 : ℚ) ≤ sumMantissa a (-b) / pow10 (max a.scale (-b).scale) := by
        rw [hvalue]
        exact sub_nonneg.mpr hle
      exact (div_nonneg_iff.mp hquotient).elim (fun h ↦ h.1) (fun h ↦ absurd h.2 (not_le.mpr hpos))
    apply toRat_le_of_fit? h (max_le a.scale_le (-b).scale_le) (le_max_left _ _) (by exact_mod_cast hnonneg)
    rw [hvalue]
    exact sub_le_self _ hb.le

def FitsAt (x : ℚ) (scale : ℕ) : Prop :=
  ∃ m : ℤ, m.natAbs < mantissaBound ∧ x = m / pow10 scale

theorem FitsAt.exists_toRat (h : FitsAt x s) (hs : s ≤ maxScale) : ∃ e : Decimal, e.toRat = x := by
  obtain ⟨m, hm, rfl⟩ := h
  exact ⟨⟨m, s, hm, hs⟩, toRat_eq _⟩

/-! ## Rounding to whole numbers -/

/-- The whole number nearest to a number, of two such the even one. -/
def nearestEven (x : ℚ) : ℤ :=
  if 2 * Int.fract x < 1 ∨ (2 * Int.fract x = 1 ∧ Even ⌊x⌋) then ⌊x⌋ else ⌊x⌋ + 1

theorem lt_nearestEven_iff {k : ℤ} (hk : Odd k) : k < nearestEven x ↔ (k + 1 / 2 : ℚ) ≤ x := by
  have hx : (⌊x⌋ : ℚ) + Int.fract x = x := Int.floor_add_fract x
  have hfract := Int.fract_lt_one x
  have hnonneg := Int.fract_nonneg x
  rcases lt_trichotomy ⌊x⌋ k with hlt | heq | hgt
  · -- everything here rounds to the odd number at most
    have hround : nearestEven x ≤ k := by
      unfold nearestEven
      split <;> omega
    have hfloor : (⌊x⌋ : ℚ) + 1 ≤ k := by exact_mod_cast hlt
    constructor
    · intro h
      omega
    · intro h
      linarith
  · have hodd : ¬Even ⌊x⌋ := by
      rw [heq]
      exact Int.not_even_iff_odd.mpr hk
    rw [heq] at hx
    by_cases hbelow : 2 * Int.fract x < 1
    · simp only [nearestEven, hbelow, true_or, if_true]
      constructor
      · intro h
        omega
      · intro h
        linarith
    · have hhalf : 1 ≤ 2 * Int.fract x := le_of_not_gt hbelow
      simp only [nearestEven, hbelow, hodd, and_false, or_false, if_false]
      constructor
      · intro _
        linarith
      · intro _
        omega
  · have hround : ⌊x⌋ ≤ nearestEven x := by
      unfold nearestEven
      split <;> omega
    have hfloor : (k : ℚ) + 1 ≤ ⌊x⌋ := by exact_mod_cast hgt
    constructor
    · intro _
      linarith
    · intro _
      omega

end Decimal

namespace Account

variable {a : Account} {amount : Amount} {now : Instant} {balance : Decimal}

def mostBalance : ℤ := Decimal.mantissaBound - 1

theorem overfills_iff : a.Overfills amount ↔
    mostBalance < Decimal.nearestEven (a.balance.toRat + amount.value.toRat) := by
  have hhalf : ((mostBalance : ℚ) + 1 / 2) = Decimal.mantissaBound - 1 / 2 := by
    simp only [mostBalance]
    push_cast
    ring
  rw [Decimal.lt_nearestEven_iff (by decide), Overfills, hhalf]

theorem on_debit_of_sub? (hcovers : a.Covers amount)
    (h : a.balance.sub? amount.value = some balance) :
    (debit amount now).on a = (.ok (), { a with balance, updatedAt := now }) := by
  simp only [on_debit, if_pos hcovers, h]

theorem on_debit_of_not_covers (hcovers : ¬a.Covers amount) :
    (debit amount now).on a =
      (.error (.rejected (.insufficientBalance a.id a.balance amount)), a) := by
  rw [on_debit, if_neg hcovers]

theorem on_credit_of_add? (h : a.balance.add? amount.value = some balance) :
    (credit amount now).on a = (.ok (), { a with balance, updatedAt := now }) := by
  simp only [on_credit, h]

/-- A debit fails if and only if the amount is larger than the balance, and then leaves the account as it
is; otherwise it leaves a balance between zero and the old one. A credit of a balance that is not negative
fails only if the sum rounds to a whole number past the largest balance, and then leaves the account as it
is; otherwise it leaves no smaller balance. Both are exact if the result fits at the larger scale. -/
theorem balance_bounds (a : Account) (amount : Amount) (now : Instant) :
    ((debit amount now).on a =
        (.error (.rejected (.insufficientBalance a.id a.balance amount)), a) ↔
      a.balance.toRat < amount.value.toRat) ∧
    (amount.value.toRat ≤ a.balance.toRat → ∃ balance : Decimal,
      (debit amount now).on a = (.ok (), { a with balance, updatedAt := now }) ∧
      0 ≤ balance.toRat ∧ balance.toRat ≤ a.balance.toRat ∧
      (Decimal.FitsAt (a.balance.toRat - amount.value.toRat) (max a.balance.scale amount.value.scale) →
        balance.toRat = a.balance.toRat - amount.value.toRat)) ∧
    (0 ≤ a.balance.toRat →
      ((credit amount now).on a = (.error (.overflow .balance), a) ∧
        mostBalance < Decimal.nearestEven (a.balance.toRat + amount.value.toRat)) ∨
      ∃ balance : Decimal, (credit amount now).on a = (.ok (), { a with balance, updatedAt := now }) ∧
        a.balance.toRat ≤ balance.toRat) ∧
    (Decimal.FitsAt (a.balance.toRat + amount.value.toRat) (max a.balance.scale amount.value.scale) →
      ∃ balance : Decimal, (credit amount now).on a = (.ok (), { a with balance, updatedAt := now }) ∧
        balance.toRat = a.balance.toRat + amount.value.toRat) := by
  have hscale : max a.balance.scale amount.value.scale ≤ Decimal.maxScale :=
    max_le a.balance.scale_le amount.value.scale_le
  have hpos := amount.toRat_pos
  -- what the debit of an amount that is covered gives
  have hsub (hle : amount.value.toRat ≤ a.balance.toRat) :
      ∃ balance, a.balance.sub? amount.value = some balance :=
    Option.ne_none_iff_exists'.mp (Decimal.sub?_ne_none hpos hle)
  refine ⟨?_, ?_, ?_, ?_⟩
  · rw [← not_le, ← covers_iff]
    constructor
    · intro herror hcovers
      obtain ⟨balance, hbalance⟩ := hsub (covers_iff.mp hcovers)
      rw [on_debit_of_sub? hcovers hbalance] at herror
      cases congrArg Prod.fst herror
    · exact on_debit_of_not_covers
  · intro hle
    obtain ⟨balance, hbalance⟩ := hsub hle
    have hrounds := Decimal.rounds_of_sub? hbalance
    refine ⟨balance, on_debit_of_sub? (covers_iff.mpr hle) hbalance,
      hrounds.nonneg (sub_nonneg.mpr hle), Decimal.toRat_le_of_sub? hbalance hpos hle, ?_⟩
    intro hfits
    exact hrounds.exact (hfits.exists_toRat hscale)
  · intro hnonneg
    cases hadd : a.balance.add? amount.value with
    | none => exact .inl ⟨by simp only [on_credit, hadd], overfills_iff.mp (add?_eq_none_iff.mp hadd)⟩
    | some balance =>
      exact .inr ⟨balance, on_credit_of_add? hadd,
        Decimal.le_toRat_of_add? hadd hnonneg hpos.le⟩
  · intro hfits
    obtain ⟨e, he⟩ := hfits.exists_toRat hscale
    cases hadd : a.balance.add? amount.value with
    | none =>
      have hover := Decimal.add?_eq_none_iff.mp hadd
      rw [← he] at hover
      have hin := e.abs_toRat_le
      exact absurd (hover.trans hin) (not_le.mpr (sub_lt_sub_left (by norm_num) _))
    | some balance =>
      exact ⟨balance, on_credit_of_add? hadd, (Decimal.rounds_of_add? hadd).exact ⟨e, he⟩⟩

def holding (amount : Amount) : Account := .opened System.idA amount System.epoch

/-- A tenth more or less than the largest balance has to be rounded. A tenth less than ten is exact. -/
theorem balance_bounds_most :
    System.tenth.value.toRat ≤ (holding System.most).balance.toRat ∧
    0 ≤ (holding System.most).balance.toRat ∧
    (∃ balance : Decimal, (credit System.tenth System.epoch).on (holding System.most) =
      (.ok (), { holding System.most with balance, updatedAt := System.epoch }) ∧
      (holding System.most).balance.toRat ≤ balance.toRat) ∧
    (∃ balance : Decimal, (debit System.tenth System.epoch).on (holding System.most) =
      (.ok (), { holding System.most with balance, updatedAt := System.epoch }) ∧
      0 ≤ balance.toRat ∧ balance.toRat ≤ (holding System.most).balance.toRat) ∧
    System.tenth.value.toRat ≤ (holding System.ten).balance.toRat ∧
    Decimal.FitsAt ((holding System.ten).balance.toRat - System.tenth.value.toRat) 1 ∧
    ∃ balance : Decimal, (debit System.tenth System.epoch).on (holding System.ten) =
      (.ok (), { holding System.ten with balance, updatedAt := System.epoch }) ∧
      balance.toRat = (holding System.ten).balance.toRat - System.tenth.value.toRat := by
  obtain ⟨-, hdebit, hcredit, -⟩ := balance_bounds (holding System.most) System.tenth System.epoch
  obtain ⟨-, hdebitTen, -, -⟩ := balance_bounds (holding System.ten) System.tenth System.epoch
  have hcovers : System.tenth.value.toRat ≤ (holding System.most).balance.toRat :=
    covers_iff.mp (by decide)
  have hcoversTen : System.tenth.value.toRat ≤ (holding System.ten).balance.toRat :=
    covers_iff.mp (by decide)
  have hzero : 0 ≤ (holding System.most).balance.toRat := Decimal.toRat_nonneg_iff.mpr (by decide)
  have hfits : Decimal.FitsAt ((holding System.ten).balance.toRat - System.tenth.value.toRat) 1 := by
    refine ⟨99, by decide, ?_⟩
    rw [Decimal.toRat_eq, Decimal.toRat_eq]
    norm_num [holding, opened, System.ten, System.tenth, pow10]
  obtain ⟨balance, hok, hnonneg, hle, -⟩ := hdebit hcovers
  obtain ⟨balanceTen, hokTen, -, -, hexact⟩ := hdebitTen hcoversTen
  refine ⟨hcovers, hzero, ?_, ⟨balance, hok, hnonneg, hle⟩, hcoversTen, hfits, balanceTen, hokTen,
    hexact hfits⟩
  rcases hcredit hzero with ⟨herror, -⟩ | hok
  · cases congrArg Prod.fst herror
  · exact hok

end Account

end Bookkeeping
