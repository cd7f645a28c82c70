import Bookkeeping.Decimal.Arithmetic
import Mathlib.Algebra.Order.Field.Basic
import Mathlib.Algebra.Order.Field.Rat
import Mathlib.Algebra.Order.Ring.Abs
import Mathlib.Data.Rat.Defs
import Mathlib.Tactic.FieldSimp
import Mathlib.Tactic.Linarith
import Mathlib.Tactic.Ring

/-! # The values of decimals

The rational number that a decimal stands for, and what sums and differences do to it. The result is
exact whenever the exact sum is the value of some decimal; otherwise it is off by at most half a unit
of its own last place. There is no result if and only if the exact one rounds past the largest decimal.
-/
namespace Bookkeeping.Decimal

def toRat (a : Decimal) : ℚ := mkRat a.mantissa (pow10 a.scale)

theorem pow10_ne_zero (n : Nat) : (pow10 n : ℚ) ≠ 0 := by
  exact_mod_cast (pow10_pos n).ne'

theorem toRat_eq (a : Decimal) : a.toRat = a.mantissa / pow10 a.scale := Rat.mkRat_eq_div _ _

theorem toRat_neg (a : Decimal) : (-a).toRat = -a.toRat := by
  rw [toRat_eq, toRat_eq, mantissa_neg, scale_neg, Int.cast_neg, neg_div]

theorem toRat_eq_zero {a : Decimal} (h : a.mantissa = 0) : a.toRat = 0 := by simp [toRat_eq, h]

theorem toRat_rescale (a : Decimal) {s : Nat} (h : a.scale ≤ s) :
    a.toRat = (a.mantissa * pow10 (s - a.scale) : ℤ) / pow10 s := by
  have hs : pow10 s = pow10 (s - a.scale) * pow10 a.scale := by
    rw [← pow10_add, Nat.sub_add_cancel h]
  have h₁ := pow10_ne_zero (s - a.scale)
  have h₂ := pow10_ne_zero a.scale
  rw [toRat_eq, hs]
  push_cast
  field_simp

/-- The number of units of 10^-s in a decimal of that scale or a smaller one. -/
def units (s : ℕ) (a : Decimal) : ℤ := a.mantissa * pow10 (s - a.scale)

@[simp] theorem units_neg (s : ℕ) (a : Decimal) : (-a).units s = -a.units s := by simp [units]

theorem sumMantissa_div (a b : Decimal) :
    (sumMantissa a b : ℚ) / pow10 (max a.scale b.scale) = a.toRat + b.toRat := by
  rw [a.toRat_rescale (le_max_left a.scale b.scale), b.toRat_rescale (le_max_right a.scale b.scale),
    ← add_div, ← Int.cast_add]
  rfl

/-! ## Dropping digits -/

theorem divHalfEven_near (n : Nat) {d : Nat} (hd : 0 < d) :
    2 * (divHalfEven n d * d : ℤ) ≤ 2 * n + d ∧ 2 * (n : ℤ) ≤ 2 * (divHalfEven n d * d) + d := by
  have hn : (n / d * d : ℤ) + (n % d : ℤ) = n := by exact_mod_cast Nat.div_add_mod' n d
  have hlt : (n % d : ℤ) < d := by exact_mod_cast Nat.mod_lt n hd
  have hnonneg : 0 ≤ (n % d : ℤ) := by exact_mod_cast Nat.zero_le (n % d)
  unfold divHalfEven
  split
  · rename_i h
    have h : 2 * (n % d : ℤ) ≤ d := by
      have : 2 * (n % d) ≤ d := by omega
      exact_mod_cast this
    push_cast
    constructor <;> linarith
  · rename_i h
    have h : (d : ℤ) ≤ 2 * (n % d : ℤ) := by
      have : d ≤ 2 * (n % d) := by omega
      exact_mod_cast this
    push_cast
    constructor <;> linarith

theorem abs_dropDigits_sub (m : ℤ) (k : Nat) :
    2 * |dropDigits divHalfEven m k * pow10 k - m| ≤ pow10 k := by
  obtain ⟨hle, hge⟩ := divHalfEven_near m.natAbs (pow10_pos k)
  have hm := Int.sign_mul_natAbs m
  have hsign : |m.sign| ≤ 1 := by
    rcases lt_trichotomy m 0 with h | h | h
    · simp [Int.sign_eq_neg_one_of_neg h]
    · simp [h]
    · simp [Int.sign_eq_one_of_pos h]
  have heq : dropDigits divHalfEven m k * pow10 k - m =
      m.sign * (divHalfEven m.natAbs (pow10 k) * pow10 k - m.natAbs) := by
    rw [dropDigits, mul_sub, hm, mul_assoc]
  have habs : 2 * |(divHalfEven m.natAbs (pow10 k) * pow10 k - m.natAbs : ℤ)| ≤ pow10 k := by
    rcases abs_cases (divHalfEven m.natAbs (pow10 k) * pow10 k - m.natAbs : ℤ) with ⟨h, -⟩ | ⟨h, -⟩ <;>
      rw [h] <;> linarith
  calc 2 * |dropDigits divHalfEven m k * pow10 k - m|
      = |m.sign| * (2 * |(divHalfEven m.natAbs (pow10 k) * pow10 k - m.natAbs : ℤ)|) := by
        rw [heq, abs_mul]; ring
    _ ≤ 1 * (2 * |(divHalfEven m.natAbs (pow10 k) * pow10 k - m.natAbs : ℤ)|) :=
        mul_le_mul_of_nonneg_right hsign (by positivity)
    _ ≤ pow10 k := by rwa [one_mul]

theorem dropDigits_mul_of {round : Nat → Nat → Nat} (k : Nat)
    (hround : ∀ n, round (n * pow10 k) (pow10 k) = n) (m : ℤ) :
    dropDigits round (m * pow10 k) k = m := by
  have hsign : (m * pow10 k).sign = m.sign := by
    have hone : (pow10 k : ℤ).sign = 1 := Int.sign_eq_one_of_pos (by exact_mod_cast pow10_pos k)
    rw [Int.sign_mul, hone, mul_one]
  rw [dropDigits, hsign, Int.natAbs_mul, Int.natAbs_natCast, hround, Int.sign_mul_natAbs]

theorem dropDigits_mul (m : ℤ) (k : Nat) : dropDigits divHalfEven (m * pow10 k) k = m := by
  apply dropDigits_mul_of
  intro n
  have hpos := pow10_pos k
  simp [divHalfEven, Nat.mul_div_cancel _ hpos, hpos]

theorem exists_of_fit? {m : ℤ} {s : Nat} {d : Decimal} (h : fit? m s = some d) :
    ∃ k ≤ s, d.scale = s - k ∧ d.mantissa = dropDigits divHalfEven m k ∧
      ∀ j < k, ∀ e : Decimal, e.scale = s - j → e.mantissa ≠ dropDigits divHalfEven m j := by
  obtain ⟨before, k, after, hrange, hk, hbefore⟩ := List.findSome?_eq_some_iff.mp h
  rw [List.range_eq_range'] at hrange
  obtain ⟨n, hn, hb, ha⟩ := List.range'_eq_append_iff.mp hrange
  obtain ⟨hstart, hlt, -⟩ := List.range'_eq_cons_iff.mp ha.symm
  obtain ⟨hm, hs⟩ := ofParts?_eq_some_iff.mp hk
  have hkn : n = k := by omega
  have hle : k ≤ s := by omega
  refine ⟨k, hle, hs.symm, hm.symm, ?_⟩
  intro j hj e hes hem
  have hnone := hbefore j (by rw [hb, List.mem_range'_1]; omega)
  rw [ofParts?_eq_some_iff.mpr ⟨hem.symm, hes.symm⟩] at hnone
  cases hnone

/-- A scale at which the rounded value fits is not passed over. -/
theorem scale_le_of_fit? {m : ℤ} {s j : Nat} {d : Decimal} (h : fit? m s = some d)
    (hs : s ≤ maxScale) (hfits : (dropDigits divHalfEven m j).natAbs < mantissaBound) :
    s - j ≤ d.scale := by
  obtain ⟨k, hk, hscale, -, hfirst⟩ := exists_of_fit? h
  by_contra hlt
  have hjk : j < k := by omega
  have hle : s - j ≤ maxScale := (Nat.sub_le s j).trans hs
  exact hfirst j hjk ⟨dropDigits divHalfEven m j, s - j, hfits, hle⟩ rfl rfl

/-- A decimal is a number rounded to its own scale, and the number itself if that is possible. -/
structure Rounds (x : ℚ) (d : Decimal) : Prop where
  near : 2 * |d.toRat - x| * pow10 d.scale ≤ 1
  exact : (∃ e : Decimal, e.toRat = x) → d.toRat = x

theorem Rounds.of_eq {x : ℚ} {d : Decimal} (h : d.toRat = x) : Rounds x d :=
  ⟨by simp [h], fun _ => h⟩

theorem Rounds.abs_sub_le {x : ℚ} {d : Decimal} (h : Rounds x d) : |d.toRat - x| ≤ 1 / 2 := by
  have hone : (1 : ℚ) ≤ pow10 d.scale := by exact_mod_cast pow10_pos d.scale
  have hle : 2 * |d.toRat - x| * 1 ≤ 2 * |d.toRat - x| * pow10 d.scale :=
    mul_le_mul_of_nonneg_left hone (by positivity)
  linarith [h.near]

theorem Rounds.neg {x : ℚ} {d : Decimal} (h : Rounds x d) : Rounds (-x) (-d) := by
  refine ⟨?_, ?_⟩
  · have habs : |(-d).toRat - -x| = |d.toRat - x| := by
      rw [toRat_neg, neg_sub_neg, abs_sub_comm]
    rw [habs, scale_neg]
    exact h.near
  · rintro ⟨e, he⟩
    rw [toRat_neg, h.exact ⟨-e, by rw [toRat_neg, he, neg_neg]⟩]

/-- A number is not rounded past a decimal that has no more digits after the point. -/
theorem Rounds.le_of_scale_le {x : ℚ} {a d : Decimal} (h : Rounds x d) (hs : a.scale ≤ d.scale)
    (hx : x ≤ a.toRat) : d.toRat ≤ a.toRat := by
  have hpos : (0 : ℚ) < pow10 d.scale := by exact_mod_cast pow10_pos d.scale
  have hunit : d.toRat * pow10 d.scale = d.mantissa := by
    rw [toRat_eq, div_mul_cancel₀ _ hpos.ne']
  have hwhole : a.toRat * pow10 d.scale = a.units d.scale := by
    rw [a.toRat_rescale hs, div_mul_cancel₀ _ hpos.ne', units]
  have hshift : x * pow10 d.scale ≤ a.toRat * pow10 d.scale := mul_le_mul_of_nonneg_right hx hpos.le
  have hnear : (d.toRat - x) * pow10 d.scale ≤ |d.toRat - x| * pow10 d.scale :=
    mul_le_mul_of_nonneg_right (le_abs_self _) hpos.le
  -- both are whole numbers of units of the last place, and half a unit apart at most
  have hhalf : 2 * (d.mantissa : ℚ) ≤ 2 * a.units d.scale + 1 := by
    rw [← hunit, ← hwhole]
    linarith [h.near]
  have hle : d.mantissa ≤ a.units d.scale := by
    have hhalf : 2 * d.mantissa ≤ 2 * a.units d.scale + 1 := by exact_mod_cast hhalf
    omega
  have hcast : (d.mantissa : ℚ) ≤ a.units d.scale := by exact_mod_cast hle
  rw [← hunit, ← hwhole] at hcast
  exact le_of_mul_le_mul_right hcast hpos

theorem Rounds.ge_of_scale_le {x : ℚ} {a d : Decimal} (h : Rounds x d) (hs : a.scale ≤ d.scale)
    (hx : a.toRat ≤ x) : a.toRat ≤ d.toRat := by
  have hneg : (-d).toRat ≤ (-a).toRat := by
    apply h.neg.le_of_scale_le (a := -a) hs
    rw [toRat_neg]
    exact neg_le_neg hx
  rw [toRat_neg, toRat_neg] at hneg
  exact neg_le_neg_iff.mp hneg

theorem Rounds.nonneg {x : ℚ} {d : Decimal} (h : Rounds x d) (hx : 0 ≤ x) : 0 ≤ d.toRat := by
  have hzero : zero.toRat = 0 := toRat_eq_zero rfl
  rw [← hzero] at hx ⊢
  exact h.ge_of_scale_le (Nat.zero_le _) hx

theorem toRat_of_dropped {m : ℤ} {s k : Nat} {d : Decimal} (hk : k ≤ s) (hs : d.scale = s - k)
    (hm : d.mantissa = dropDigits divHalfEven m k) :
    d.toRat = (dropDigits divHalfEven m k * pow10 k : ℤ) / pow10 s := by
  have hle : d.scale ≤ s := by omega
  rw [d.toRat_rescale hle, hm, hs, Nat.sub_sub_self hk]

/-- A number over a power of ten that some decimal stands for loses only zeros at some scale at
which it fits. -/
theorem exists_dropped {m : ℤ} {s : Nat} (hs : s ≤ maxScale) {e : Decimal}
    (he : e.toRat = m / pow10 s) :
    ∃ j ≤ s, ∃ n : ℤ, m = n * pow10 j ∧ ∃ e' : Decimal, e'.scale = s - j ∧ e'.mantissa = n := by
  by_cases h : e.scale ≤ s
  · rw [e.toRat_rescale h, div_left_inj' (pow10_ne_zero s)] at he
    refine ⟨s - e.scale, Nat.sub_le _ _, e.mantissa, ?_, e, (Nat.sub_sub_self h).symm, rfl⟩
    exact_mod_cast he.symm
  · have hle : s ≤ e.scale := by omega
    have hm : e.mantissa = m * pow10 (e.scale - s) := by
      have hpow : pow10 e.scale = pow10 (e.scale - s) * pow10 s := by
        rw [← pow10_add, Nat.sub_add_cancel hle]
      rw [toRat_eq, div_eq_div_iff (pow10_ne_zero _) (pow10_ne_zero _), hpow] at he
      have hcast : (e.mantissa : ℚ) = m * pow10 (e.scale - s) := by
        apply mul_right_cancel₀ (pow10_ne_zero s)
        rw [he]
        push_cast
        ring
      exact_mod_cast hcast
    have hlt : m.natAbs < mantissaBound := by
      have hle : m.natAbs ≤ e.mantissa.natAbs := by
        rw [hm, Int.natAbs_mul, Int.natAbs_natCast]
        exact Nat.le_mul_of_pos_right _ (pow10_pos _)
      exact hle.trans_lt e.mantissa_lt
    exact ⟨0, Nat.zero_le _, m, by simp, ⟨m, s, hlt, hs⟩, rfl, rfl⟩

theorem rounds_of_fit? {m : ℤ} {s : Nat} (hs : s ≤ maxScale) {d : Decimal} (h : fit? m s = some d) :
    Rounds (m / pow10 s) d := by
  obtain ⟨k, hk, hscale, hmantissa, hfirst⟩ := exists_of_fit? h
  have hvalue := toRat_of_dropped hk hscale hmantissa
  have hpow : (pow10 s : ℚ) = pow10 k * pow10 d.scale := by
    rw [hscale, ← Nat.cast_mul, ← pow10_add, Nat.add_sub_cancel' hk]
  refine ⟨?_, ?_⟩
  · have hsub : d.toRat - m / pow10 s =
        ((dropDigits divHalfEven m k * pow10 k - m : ℤ) : ℚ) / pow10 s := by
      rw [hvalue, ← sub_div, ← Int.cast_sub]
    have habs : 2 * |((dropDigits divHalfEven m k * pow10 k - m : ℤ) : ℚ)| ≤ pow10 k := by
      exact_mod_cast abs_dropDigits_sub m k
    have hpos : (0 : ℚ) < pow10 d.scale := by exact_mod_cast pow10_pos d.scale
    have hpos' : (0 : ℚ) < pow10 k := by exact_mod_cast pow10_pos k
    rw [hsub, abs_div, hpow, abs_of_pos (mul_pos hpos' hpos), mul_div_assoc', div_mul_eq_mul_div,
      div_le_one (mul_pos hpos' hpos)]
    exact mul_le_mul_of_nonneg_right habs hpos.le
  · rintro ⟨e, he⟩
    obtain ⟨j, hj, n, hn, e', hs', hm'⟩ := exists_dropped hs he
    -- the first scale that fits is reached before any digit but zeros is dropped
    have hkj : k ≤ j := by
      by_contra hlt
      refine hfirst j (by omega) e' hs' ?_
      rw [hm', hn, dropDigits_mul]
    have hm : m = n * pow10 (j - k) * pow10 k := by
      rw [hn, mul_assoc, ← Nat.cast_mul, ← pow10_add, Nat.sub_add_cancel hkj]
    have hdrop : dropDigits divHalfEven m k * pow10 k = m := by
      conv_lhs => rw [hm, dropDigits_mul]
      exact hm.symm
    rw [hvalue, hdrop]

theorem rounds_of_add? {a b c : Decimal} (h : a.add? b = some c) : Rounds (a.toRat + b.toRat) c := by
  unfold add? at h
  split at h
  · rename_i ha
    cases h
    exact .of_eq (by rw [toRat_eq_zero ha, zero_add])
  · split at h
    · rename_i hb
      cases h
      exact .of_eq (by rw [toRat_eq_zero hb, add_zero])
    · rw [← sumMantissa_div]
      exact rounds_of_fit? (max_le a.scale_le b.scale_le) h

theorem rounds_of_sub? {a b c : Decimal} (h : a.sub? b = some c) : Rounds (a.toRat - b.toRat) c := by
  rw [sub_eq_add_neg, ← toRat_neg]
  exact rounds_of_add? h

/-! ## Sums out of range -/

theorem divHalfEven_le_iff {n d k : Nat} (hd : 0 < d) (hk : k % 2 = 1) :
    divHalfEven n d ≤ k ↔ 2 * n < (2 * k + 1) * d := by
  have hn : n / d * d + n % d = n := Nat.div_add_mod' n d
  have hlt : n % d < d := Nat.mod_lt n hd
  have hmul : (2 * k + 1) * d = 2 * (k * d) + d := by ring
  rw [hmul]
  unfold divHalfEven
  split
  · rename_i h
    constructor
    · intro hle
      rcases hle.lt_or_eq with hle | heq
      · have hbelow : (n / d + 1) * d ≤ k * d := Nat.mul_le_mul_right d hle
        rw [Nat.add_mul, Nat.one_mul] at hbelow
        omega
      · rw [heq] at h hn
        omega
    · intro hbelow
      by_contra hgt
      have habove : (k + 1) * d ≤ n / d * d := Nat.mul_le_mul_right d (by omega)
      rw [Nat.add_mul, Nat.one_mul] at habove
      omega
  · rename_i h
    constructor
    · intro hle
      have hbelow : (n / d + 1) * d ≤ k * d := Nat.mul_le_mul_right d hle
      rw [Nat.add_mul, Nat.one_mul] at hbelow
      omega
    · intro hbelow
      by_contra hgt
      have habove : k * d ≤ n / d * d := Nat.mul_le_mul_right d (by omega)
      omega

theorem natAbs_dropDigits (m : ℤ) (k : Nat) :
    (dropDigits divHalfEven m k).natAbs = divHalfEven m.natAbs (pow10 k) := by
  have hpos := pow10_pos k
  unfold dropDigits
  rcases lt_trichotomy m 0 with h | h | h
  · simp [Int.sign_eq_neg_one_of_neg h]
  · simp [h, divHalfEven, hpos]
  · simp [Int.sign_eq_one_of_pos h]

theorem ofParts?_eq_none_iff {m : ℤ} {s : Nat} (hs : s ≤ maxScale) :
    ofParts? m s = none ↔ mantissaBound ≤ m.natAbs := by
  simp [ofParts?, hs]

/-- A number has no decimal if and only if it rounds past the largest mantissa without a point. -/
theorem fit?_eq_none_iff {m : ℤ} {s : Nat} (hs : s ≤ maxScale) :
    fit? m s = none ↔ (2 * mantissaBound - 1) * pow10 s ≤ 2 * m.natAbs := by
  have hfits (k : Nat) : mantissaBound ≤ (dropDigits divHalfEven m k).natAbs ↔
      (2 * mantissaBound - 1) * pow10 k ≤ 2 * m.natAbs := by
    have hround := divHalfEven_le_iff (n := m.natAbs) (k := mantissaBound - 1) (pow10_pos k) (by decide)
    rw [natAbs_dropDigits]
    have hbound : 2 * (mantissaBound - 1) + 1 = 2 * mantissaBound - 1 := by decide
    rw [hbound] at hround
    have hpos : 0 < mantissaBound := by decide
    omega
  have hnone (k : Nat) : ofParts? (dropDigits divHalfEven m k) (s - k) = none ↔
      (2 * mantissaBound - 1) * pow10 k ≤ 2 * m.natAbs := by
    rw [ofParts?_eq_none_iff ((Nat.sub_le s k).trans hs), hfits]
  rw [fit?, List.findSome?_eq_none_iff]
  simp only [hnone, List.mem_range]
  constructor
  · intro h
    exact h s (by omega)
  · intro h k hk
    have hle : pow10 k ≤ pow10 s := by
      rw [← Nat.sub_add_cancel (show k ≤ s by omega), pow10_add]
      exact Nat.le_mul_of_pos_left _ (pow10_pos _)
    exact (Nat.mul_le_mul_left _ hle).trans h

theorem abs_toRat_le (a : Decimal) : |a.toRat| ≤ mantissaBound - 1 := by
  have hone : (1 : ℚ) ≤ pow10 a.scale := by exact_mod_cast pow10_pos a.scale
  have hlt : |(a.mantissa : ℚ)| ≤ mantissaBound - 1 := by
    have hnat : a.mantissa.natAbs + 1 ≤ mantissaBound := a.mantissa_lt
    have hcast : ((a.mantissa.natAbs : ℤ) : ℚ) + 1 ≤ mantissaBound := by exact_mod_cast hnat
    rw [Int.natCast_natAbs, Int.cast_abs] at hcast
    linarith
  rw [toRat_eq, abs_div, abs_of_pos (by linarith : (0 : ℚ) < pow10 a.scale)]
  exact (div_le_self (abs_nonneg _) hone).trans hlt

theorem add?_eq_none_iff {a b : Decimal} :
    a.add? b = none ↔ (mantissaBound - 1 / 2 : ℚ) ≤ |a.toRat + b.toRat| := by
  have hsmall (c : Decimal) : ¬(mantissaBound - 1 / 2 : ℚ) ≤ |c.toRat| := by
    exact not_le.mpr (c.abs_toRat_le.trans_lt (sub_lt_sub_left (by norm_num) _))
  unfold add?
  split
  · rename_i ha
    rw [toRat_eq_zero ha, zero_add]
    simpa using hsmall b
  split
  · rename_i hb
    rw [toRat_eq_zero hb, add_zero]
    simpa using hsmall a
  rw [fit?_eq_none_iff (max_le a.scale_le b.scale_le), ← sumMantissa_div]
  have hpos : (0 : ℚ) < pow10 (max a.scale b.scale) := by exact_mod_cast pow10_pos _
  rw [abs_div, abs_of_pos hpos, le_div_iff₀ hpos]
  have hbound : ((2 * mantissaBound - 1 : ℕ) : ℚ) = 2 * mantissaBound - 1 := by norm_num
  have habs : ((sumMantissa a b).natAbs : ℚ) = |(sumMantissa a b : ℚ)| := by
    rw [← Int.cast_abs, ← Int.natCast_natAbs, Int.cast_natCast]
  rw [← Nat.cast_le (α := ℚ)]
  push_cast [habs, hbound]
  constructor
  · intro h
    linarith
  · intro h
    linarith

end Bookkeeping.Decimal
