import Bookkeeping.Proofs.Conservation
import Bookkeeping.Proofs.IntegerLedger
import Bookkeeping.Proofs.Overflow
import Mathlib.Algebra.Order.BigOperators.Group.List

/-! # When decimals are as good as whole numbers

As long as all that was ever deposited fits into one decimal at some scale, and no amount has a larger
one, every balance is a whole number of units of this scale, and nothing is rounded or out of range.
The reason is that two balances together are never more than the sum of all of them, which stays what
was deposited. So the books do what books over whole numbers of units do.
-/
namespace Bookkeeping
open Bookkeeping.Time

/-! ## Decimals as whole numbers of units -/

namespace Decimal

variable {a b : Decimal} {s : ℕ} {n m : ℤ}

/-- A decimal of scale at most `s` is a number of units of 10^-s. -/
structure Counts (s : ℕ) (a : Decimal) (n : ℤ) : Prop where
  scale : a.scale ≤ s
  units : a.units s = n

theorem cast_pow10 (k : ℕ) : ((pow10 k : ℕ) : ℚ) = 10 ^ k := by
  induction k with
  | zero => rfl
  | succ k ih =>
    rw [pow10_succ, Nat.cast_mul, ih, pow_succ]
    norm_num

theorem Counts.toRat (h : a.Counts s n) : a.toRat = n / 10 ^ s := by
  rw [a.toRat_rescale h.scale, ← cast_pow10, ← h.units]
  rfl

theorem Counts.le_iff (ha : a.Counts s n) (hb : b.Counts s m) : a ≤ b ↔ n ≤ m := by
  have hpos : (0 : ℚ) < 10 ^ s := by positivity
  rw [← toRat_le_iff, ha.toRat, hb.toRat, div_le_div_iff_of_pos_right hpos, Int.cast_le]

theorem Counts.neg (h : a.Counts s n) : (-a).Counts s (-n) := by
  refine ⟨h.scale, ?_⟩
  rw [units_neg, h.units]

theorem fit?_of_lt {k : ℕ} (hn : n.natAbs < mantissaBound) (hk : k ≤ maxScale) :
    fit? n k = some ⟨n, k, hn, hk⟩ := by
  have hdrop : dropDigits divHalfEven n 0 = n := by simpa using dropDigits_mul n 0
  have hparts : ofParts? n k = some ⟨n, k, hn, hk⟩ := ofParts?_eq_some_iff.mpr ⟨rfl, rfl⟩
  rw [fit?, List.range_succ_eq_map, List.findSome?_cons, hdrop, Nat.sub_zero, hparts]

/-- The sum over the larger of two scales, counted in units that are smaller still. -/
theorem sumMantissa_mul (ha : a.Counts s n) (hb : b.Counts s m) :
    sumMantissa a b * pow10 (s - max a.scale b.scale) = n + m := by
  have hsplit {k : ℕ} (hk : k ≤ max a.scale b.scale) :
      pow10 (s - k) = pow10 (max a.scale b.scale - k) * pow10 (s - max a.scale b.scale) := by
    rw [← pow10_add]
    have hmax := max_le ha.scale hb.scale
    congr 1
    omega
  rw [← ha.units, ← hb.units, units, units, hsplit (le_max_left _ _), hsplit (le_max_right _ _),
    sumMantissa]
  push_cast
  ring

theorem Counts.exists_add? (ha : a.Counts s n) (hb : b.Counts s m) (hs : s ≤ maxScale)
    (hlt : (n + m).natAbs < mantissaBound) : ∃ d, a.add? b = some d ∧ d.Counts s (n + m) := by
  unfold add?
  split
  · rename_i hzero
    have hn : n = 0 := by rw [← ha.units, Decimal.units, hzero, zero_mul]
    exact ⟨b, rfl, by rwa [hn, zero_add]⟩
  split
  · rename_i hzero
    have hm : m = 0 := by rw [← hb.units, Decimal.units, hzero, zero_mul]
    exact ⟨a, rfl, by rwa [hm, add_zero]⟩
  have hsum := sumMantissa_mul ha hb
  have hle : (sumMantissa a b).natAbs ≤ (n + m).natAbs := by
    rw [← hsum, Int.natAbs_mul, Int.natAbs_natCast]
    exact Nat.le_mul_of_pos_right _ (pow10_pos _)
  have hmax := max_le ha.scale hb.scale
  exact ⟨_, fit?_of_lt (hle.trans_lt hlt) (hmax.trans hs), hmax, hsum⟩

end Decimal

/-! ## Books in units -/

/-- An outcome is what a verdict says, with its money in units of 10^-s. -/
inductive Verdict.Stands (s : ℕ) : Verdict → Outcome → Prop where
  | account {a : Account} {n : ℤ} (h : a.balance.toRat = n / 10 ^ s) :
    Stands s (.account a.id n) (.answered (.account a))
  | moved : Stands s .moved (.answered .transferred)
  | alreadyExists (id : AccountId) :
    Stands s (.alreadyExists id) (.failed (.rejected (.alreadyExists id)))
  | alreadyRecorded (t : TransactionId) :
    Stands s (.alreadyRecorded t) (.failed (.rejected (.alreadyRecorded t)))
  | invalidRequestTime (requested now : Instant) (threshold : Duration) :
    Stands s (.invalidRequestTime requested now)
      (.failed (.rejected (.invalidRequestTime requested now threshold)))
  | sameAccount (id : AccountId) : Stands s (.sameAccount id) (.failed (.rejected (.sameAccount id)))
  | accountNotFound (id : AccountId) :
    Stands s (.accountNotFound id) (.failed (.rejected (.accountNotFound id)))
  | sourceNotFound (id : AccountId) :
    Stands s (.sourceNotFound id) (.failed (.rejected (.sourceNotFound id)))
  | destinationNotFound (id : AccountId) :
    Stands s (.destinationNotFound id) (.failed (.rejected (.destinationNotFound id)))
  | insufficientBalance (id : AccountId) {balance : Decimal} {requested : Amount} {n m : ℤ}
    (hn : balance.toRat = n / 10 ^ s) (hm : requested.value.toRat = m / 10 ^ s) :
    Stands s (.insufficientBalance id n m)
      (.failed (.rejected (.insufficientBalance id balance requested)))
  | exhausted : Stands s .exhausted (.failed (.overflow .sequence))

namespace Book

/-- A book holds what a ledger over whole numbers holds in units of 10^-s. -/
structure Counted (s : ℕ) (b : Book) (l : IntegerLedger) : Prop where
  row : ∀ id, Option.Rel (fun a n => a.balance.Counts s n ∧ 0 ≤ n) (b.row id) (l.balance id)
  entries : ∀ id, (b.stream id).length = l.entries id
  recorded : ∀ t, b.Records t ↔ t ∈ l.recorded

theorem counted_empty (s : ℕ) : Counted s {} {} where
  row _ := .none
  entries _ := rfl
  recorded t := by simp [Records]

variable {b : Book} {s : ℕ} {l : IntegerLedger} {id : AccountId}

theorem findRow_of_mem {rows : List Account} {a : Account} (h : (rows.map Account.id).Nodup)
    (ha : a ∈ rows) : findRow a.id rows = some a := by
  induction rows with
  | nil => cases ha
  | cons c rest ih =>
    obtain ⟨hc, hrest⟩ := List.nodup_cons.mp h
    rcases List.mem_cons.mp ha with rfl | ha
    · simp [findRow]
    · have hne : c.id ≠ a.id := fun he => hc (he ▸ List.mem_map_of_mem ha)
      have hskip : findRow a.id (c :: rest) = findRow a.id rest := by simp [findRow, hne]
      rw [hskip, ih hrest ha]

theorem records_post (b : Book) (p : Posting) (t : TransactionId) :
    (b.post p).Records t ↔ b.Records t ∨ ∃ d ∈ p.drafts, d.transaction = t := by
  simp only [Records, post, List.mem_append, or_and_right, exists_or]

namespace Counted

theorem row_eq_none_iff (h : b.Counted s l) : b.row id = none ↔ l.balance id = none := by
  have hrel := h.row id
  constructor
  · intro hrow
    rw [hrow] at hrel
    cases hbalance : l.balance id with
    | none => rfl
    | some n =>
      rw [hbalance] at hrel
      cases hrel
  · intro hbalance
    rw [hbalance] at hrel
    cases hrow : b.row id with
    | none => rfl
    | some a =>
      rw [hrow] at hrel
      cases hrel

theorem exists_balance (h : b.Counted s l) {a : Account} (ha : b.row id = some a) :
    ∃ n, l.balance id = some n ∧ a.balance.Counts s n ∧ 0 ≤ n := by
  have hrel := h.row id
  rw [ha] at hrel
  cases hn : l.balance id with
  | none =>
    rw [hn] at hrel
    cases hrel
  | some n =>
    rw [hn] at hrel
    cases hrel with
    | some hboth => exact ⟨n, rfl, hboth⟩

theorem nonneg (h : b.Counted s l) {a : Account} (ha : b.row id = some a) :
    0 ≤ a.balance.toRat := by
  obtain ⟨n, -, hcounts, hnonneg⟩ := h.exists_balance ha
  have hcast : (0 : ℚ) ≤ n := by exact_mod_cast hnonneg
  rw [hcounts.toRat]
  positivity

theorem add_le_total (h : b.Counted s l) (hd : b.Distinct) {source destination : AccountId}
    {a c : Account} (ha : b.row source = some a) (hc : b.row destination = some c)
    (hne : source ≠ destination) : a.balance.toRat + c.balance.toRat ≤ b.total := by
  have hothers := sum_filter_ne (fun x => x.balance.toRat) source hd
  have ha' : findRow source b.rows = some a := ha
  rw [ha'] at hothers
  have hmem : c ∈ b.rows.filter fun x => x.id ≠ source := by
    refine List.mem_filter.mpr ⟨List.mem_of_find?_eq_some hc, ?_⟩
    rw [row_id hc]
    simpa using hne.symm
  have hnonneg : ∀ x ∈ (b.rows.filter fun x => x.id ≠ source).map fun x => x.balance.toRat,
      0 ≤ x := by
    intro x hx
    obtain ⟨y, hy, rfl⟩ := List.mem_map.mp hx
    exact h.nonneg (findRow_of_mem hd (List.mem_filter.mp hy).1)
  have hle := List.single_le_sum hnonneg _ (List.mem_map_of_mem hmem)
  rw [hothers] at hle
  simp only [Option.map_some, Option.getD_some] at hle
  change c.balance.toRat ≤ b.total - a.balance.toRat at hle
  linarith

theorem post_opening (h : b.Counted s l) (settings : Settings) (request : Request)
    {initial : Amount} (hscale : initial.value.scale ≤ s) (now : Instant) :
    (b.post (.opening settings request id initial now)).Counted s
      (l.post request.transaction id (initial.value.units s) 2) where
  row other := by
    have hpos : 0 ≤ initial.value.units s := by
      have hmantissa := Decimal.zero_lt_iff.mp initial.pos
      rw [Decimal.units]
      positivity
    rw [row_post_opening, IntegerLedger.balance_post]
    by_cases he : id = other
    · rw [if_pos he, if_pos he.symm]
      exact .some ⟨⟨hscale, rfl⟩, hpos⟩
    · rw [if_neg he, if_neg (Ne.symm he)]
      exact h.row other
  entries other := by
    rw [stream_post_opening, IntegerLedger.entries_post]
    by_cases he : id = other
    · rw [if_pos he, if_pos he.symm, List.length_append, h.entries, he]
      rfl
    · rw [if_neg he, if_neg (Ne.symm he)]
      exact h.entries other
  recorded t := by
    rw [records_post, h.recorded]
    simp [Posting.opening, Request.draft, IntegerLedger.post, or_comm, eq_comm]

theorem post_movement (h : b.Counted s l) (settings : Settings) (request : Request)
    {source destination : AccountId} (hne : source ≠ destination) (amount : Amount)
    {debited credited : Account} (hd : debited.id = source) (hc : credited.id = destination)
    (n m : SequenceNumber) {x y : ℤ} (hx : debited.balance.Counts s x) (hx0 : 0 ≤ x)
    (hy : credited.balance.Counts s y) (hy0 : 0 ≤ y) :
    (b.post (.movement settings request source destination amount debited credited n m)).Counted s
      ((l.post request.transaction source x 1).post request.transaction destination y 1) where
  row other := by
    rw [row_post_movement _ _ _ _ hd hc, IntegerLedger.balance_post, IntegerLedger.balance_post]
    by_cases he : destination = other
    · rw [if_pos he, if_pos he.symm]
      exact .some ⟨hy, hy0⟩
    rw [if_neg he, if_neg (Ne.symm he)]
    by_cases he' : source = other
    · rw [if_pos he', if_pos he'.symm]
      exact .some ⟨hx, hx0⟩
    · rw [if_neg he', if_neg (Ne.symm he')]
      exact h.row other
  entries other := by
    rw [stream_post_movement _ _ _ hne, IntegerLedger.entries_post, IntegerLedger.entries_post,
      IntegerLedger.entries_post]
    by_cases he : source = other
    · have hother : other ≠ destination := he ▸ hne
      rw [if_pos he, if_neg hother, if_pos he.symm, List.length_append, h.entries, he]
      rfl
    rw [if_neg he]
    by_cases he' : destination = other
    · rw [if_pos he', if_pos he'.symm, if_neg hne.symm, List.length_append, h.entries, he']
      rfl
    · rw [if_neg he', if_neg (Ne.symm he'), if_neg (Ne.symm he)]
      exact h.entries other
  recorded t := by
    rw [records_post, h.recorded]
    simp [Posting.movement, Request.draft, IntegerLedger.post, or_comm, eq_comm]

end Counted

end Book

/-! ## One command -/

/-- The books and the whole numbers come to the same with a command, and the books hold more by what
it brings in. -/
structure Follows (s : ℕ) (b : Book) (command : Command) (r : Except Failure Posting)
    (x : Verdict × IntegerLedger) : Prop where
  stands : x.1.Stands s (.ofResult (r.map (·.answer)))
  counted : (b.after r).Counted s x.2
  total : (b.after r).total = b.total + if r.isOk then command.deposit else 0

namespace Book.Counted
open Workflow

variable {b : Book} {s : ℕ} {l : IntegerLedger} {settings : Settings} {command : Command}
  {request : Request} {id source destination : AccountId} {amount : Amount} {checked now : Instant}
  {a c : Account} {x y : ℤ}

theorem fails (h : b.Counted s l) {w : Verdict} {why : Failure} (hw : w.Stands s (.failed why)) :
    Follows s b command (.error why) (w, l) where
  stands := hw
  counted := h
  total := (add_zero _).symm

theorem isFull_iff (h : b.Counted s l) : b.IsFull id ↔ l.IsFull id := by
  rw [Book.IsFull, IntegerLedger.IsFull, h.entries]

theorem follows_create (h : b.Counted s l) (hd : b.Distinct) (hscale : amount.value.scale ≤ s) :
    Follows s b (.create request id amount)
      (Command.judge settings checked now b (.create request id amount))
      (l.step settings checked (.create request id (amount.value.units s))) := by
  rw [Command.judge, IntegerLedger.step]
  by_cases hfresh : Fresh settings request checked
  swap
  · rw [if_pos hfresh, if_pos hfresh]
    exact h.fails (.invalidRequestTime ..)
  rw [if_neg (not_not.mpr hfresh), if_neg (not_not.mpr hfresh)]
  by_cases hrow : b.row id = none
  swap
  · rw [if_pos hrow, if_pos (mt h.row_eq_none_iff.mpr hrow)]
    exact h.fails (.alreadyExists id)
  rw [if_neg (not_not.mpr hrow), if_neg (not_not.mpr (h.row_eq_none_iff.mp hrow))]
  by_cases hrecorded : b.Records request.transaction
  · rw [if_pos hrecorded, if_pos ((h.recorded _).mp hrecorded)]
    exact h.fails (.alreadyRecorded _)
  · rw [if_neg hrecorded, if_neg (mt (h.recorded _).mpr hrecorded)]
    have hcounts : amount.value.Counts s (amount.value.units s) := ⟨hscale, rfl⟩
    have hstands : Verdict.Stands s (.account id (amount.value.units s))
        (.answered (.account (.opened id amount checked))) :=
      .account (a := .opened id amount checked) hcounts.toRat
    exact ⟨hstands, h.post_opening settings request hscale checked,
      total_post_opening hd hrow settings request amount checked⟩

theorem follows_get (h : b.Counted s l) :
    Follows s b (.get id) (Command.judge settings checked now b (.get id))
      (l.step settings checked (.get id)) := by
  rw [Command.judge, IntegerLedger.step, Book.require]
  cases hrow : b.row id with
  | none =>
    rw [h.row_eq_none_iff.mp hrow]
    exact h.fails (.accountNotFound id)
  | some a =>
    obtain ⟨n, hn, hcounts, -⟩ := h.exists_balance hrow
    rw [hn, ← row_id hrow]
    change Follows s b _ (.ok ⟨[], [], .account a⟩) (.account a.id n, l)
    have hafter : b.after (.ok ⟨[], [], .account a⟩) = b := b.post_nil _
    refine ⟨.account hcounts.toRat, hafter.symm ▸ h, ?_⟩
    rw [hafter]
    exact (add_zero _).symm

/-- An amount that leaves one balance does not bring another one out of range. -/
theorem natAbs_add_lt (h : b.Counted s l) (hd : b.Distinct) (hcap : b.total ≤ (2 ^ 96 - 1) / 10 ^ s)
    (ha : b.row source = some a) (hc : b.row destination = some c) (hne : source ≠ destination)
    (hx : a.balance.Counts s x) (hy : c.balance.Counts s y) (hy0 : 0 ≤ y) {n : ℤ} (hn : 0 ≤ n)
    (hle : n ≤ x) : (y + n).natAbs < Decimal.mantissaBound := by
  have hpos : (0 : ℚ) < 10 ^ s := by positivity
  have htotal := (h.add_le_total hd ha hc hne).trans hcap
  rw [hx.toRat, hy.toRat, ← add_div, div_le_div_iff_of_pos_right hpos] at htotal
  have hsum : x + y ≤ 2 ^ 96 - 1 := by exact_mod_cast htotal
  have hbound : Decimal.mantissaBound = 2 ^ 96 := by norm_num
  rw [hbound]
  omega

theorem follows_move (h : b.Counted s l) (hk : b.Kept) (hd : b.Distinct) (hs : s ≤ Decimal.maxScale)
    (hcap : b.total ≤ (2 ^ 96 - 1) / 10 ^ s) (hscale : amount.value.scale ≤ s)
    (ha : b.row source = some a) (hc : b.row destination = some c) (hne : source ≠ destination)
    (hx : a.balance.Counts s x) (hy : c.balance.Counts s y) (hy0 : 0 ≤ y) :
    Follows s b (.transfer request source destination amount)
      (b.move settings request source destination amount now a c)
      (l.move request.transaction source destination (amount.value.units s) x y) := by
  have hcounts : amount.value.Counts s (amount.value.units s) := ⟨hscale, rfl⟩
  rw [IntegerLedger.move]
  by_cases hless : x < amount.value.units s
  · have hcovers : ¬a.Covers amount := by
      rw [Account.Covers, hcounts.le_iff hx]
      omega
    rw [if_pos hless, hk.move_eq_error_iff.mpr (.inl ⟨hcovers, rfl⟩), row_id ha]
    exact h.fails (.insufficientBalance source hx.toRat hcounts.toRat)
  have hle : amount.value.units s ≤ x := by omega
  have hcovers : a.Covers amount := by
    rw [Account.Covers, hcounts.le_iff hx]
    exact hle
  have hamount : 0 ≤ amount.value.units s := by
    have hmantissa := Decimal.zero_lt_iff.mp amount.pos
    rw [Decimal.units]
    positivity
  -- the balance that covers the amount and the one that receives it fit into the total together
  have hin := h.natAbs_add_lt hd hcap ha hc hne hx hy hy0 hamount hle
  obtain ⟨high, hadd, hhigh⟩ := hy.exists_add? hcounts hs hin
  have hfits : ¬c.Overfills amount := by
    rw [← Account.add?_eq_none_iff, hadd]
    simp
  rw [if_neg hless]
  by_cases hfull : b.IsFull source ∨ b.IsFull destination
  · rw [if_pos (hfull.imp h.isFull_iff.mp h.isFull_iff.mp),
      hk.move_eq_error_iff.mpr (.inr (.inr ⟨hcovers, hfits, hfull, rfl⟩))]
    exact h.fails .exhausted
  rw [if_neg (mt (Or.imp h.isFull_iff.mpr h.isFull_iff.mpr) hfull)]
  cases hmove : b.move settings request source destination amount now a c with
  | error why =>
    rcases hk.move_eq_error_iff.mp hmove with ⟨hnot, -⟩ | ⟨-, hover, -⟩ | ⟨-, -, hfull', -⟩
    · exact absurd hcovers hnot
    · exact absurd hover hfits
    · exact absurd hfull' hfull
  | ok p =>
    obtain ⟨debited, hdebit, credited, hcredit, n, hn, m, hm, rfl⟩ := Book.move_eq_ok_iff.mp hmove
    have hds := (Account.debit_id hdebit).trans (row_id ha)
    have hcd := (Account.credit_id hcredit).trans (row_id hc)
    have hx0 : 0 ≤ x := hamount.trans hle
    have hxlt := h.natAbs_add_lt hd hcap hc ha hne.symm hy hx hx0 le_rfl hy0
    obtain ⟨low, hsub, hlow⟩ := hx.exists_add? hcounts.neg hs (by omega)
    cases (Account.sub?_of_debit hdebit).symm.trans hsub
    cases (Account.add?_of_credit hcredit).symm.trans hadd
    refine ⟨.moved, ?_, ?_⟩
    · exact h.post_movement settings request hne amount hds hcd n m hlow (by omega) hhigh (by omega)
    · -- what the one side loses is what the other one gains
      have htotal := total_post_movement hd settings request hne amount ha hc hds hcd n m
      rw [hlow.toRat, hx.toRat, hhigh.toRat, hy.toRat] at htotal
      refine htotal.trans (Eq.trans ?_ (add_zero b.total).symm)
      push_cast
      ring

theorem follows_transfer (h : b.Counted s l) (hk : b.Kept) (hd : b.Distinct)
    (hs : s ≤ Decimal.maxScale) (hcap : b.total ≤ (2 ^ 96 - 1) / 10 ^ s)
    (hscale : amount.value.scale ≤ s) :
    Follows s b (.transfer request source destination amount)
      (Command.judge settings checked now b (.transfer request source destination amount))
      (l.step settings checked (.transfer request source destination (amount.value.units s))) := by
  rw [Command.judge, IntegerLedger.step]
  by_cases hfresh : Fresh settings request checked
  swap
  · rw [if_pos hfresh, if_pos hfresh]
    exact h.fails (.invalidRequestTime ..)
  rw [if_neg (not_not.mpr hfresh), if_neg (not_not.mpr hfresh)]
  by_cases hrecorded : b.Records request.transaction
  · rw [if_pos hrecorded, if_pos ((h.recorded _).mp hrecorded)]
    exact h.fails (.alreadyRecorded _)
  rw [if_neg hrecorded, if_neg (mt (h.recorded _).mpr hrecorded)]
  by_cases hne : source = destination
  · rw [if_pos hne, if_pos hne]
    exact h.fails (.sameAccount source)
  rw [if_neg hne, if_neg hne, Book.require, Book.require]
  cases ha : b.row source with
  | none =>
    rw [h.row_eq_none_iff.mp ha]
    exact h.fails (.sourceNotFound source)
  | some a =>
    obtain ⟨x, hbalance, hx, -⟩ := h.exists_balance ha
    rw [hbalance]
    cases hc : b.row destination with
    | none =>
      rw [h.row_eq_none_iff.mp hc]
      exact h.fails (.destinationNotFound destination)
    | some c =>
      obtain ⟨y, hbalance', hy, hy0⟩ := h.exists_balance hc
      rw [hbalance']
      exact h.follows_move hk hd hs hcap hscale ha hc hne hx hy hy0

end Book.Counted

/-! ## Runs -/

namespace Command

def amount? : Command → Option Amount
  | .create _ _ initial => some initial
  | .transfer _ _ _ amount => some amount
  | .get _ => none

theorem deposit_nonneg (command : Command) : 0 ≤ command.deposit := by
  cases command with
  | create request id initial => exact initial.toRat_pos.le
  | transfer => exact le_rfl
  | get => exact le_rfl

end Command

/-- What a visit brings in: the amount of an opening that succeeded. -/
def Visit.deposit (v : Visit) : Option Outcome → ℚ
  | some (.answered _) => v.command.deposit
  | _ => 0

theorem Visit.deposit_nonneg (v : Visit) (o : Option Outcome) : 0 ≤ v.deposit o := by
  unfold deposit
  split
  · exact v.command.deposit_nonneg
  · exact le_rfl

/-- The sum of the initial balances of all openings that succeeded. -/
def deposited (vs : List Visit) (os : List (Option Outcome)) : ℚ :=
  (List.zipWith Visit.deposit vs os).sum

theorem deposited_cons (v : Visit) (vs : List Visit) (o : Option Outcome) (os : List (Option Outcome)) :
    deposited (v :: vs) (o :: os) = v.deposit o + deposited vs os := by
  rw [deposited, List.zipWith_cons_cons, List.sum_cons]
  rfl

theorem deposited_nonneg (vs : List Visit) (os : List (Option Outcome)) : 0 ≤ deposited vs os := by
  induction vs generalizing os with
  | nil => exact le_rfl
  | cons v rest ih =>
    cases os with
    | nil => exact le_rfl
    | cons o os =>
      rw [deposited_cons]
      exact add_nonneg (v.deposit_nonneg o) (ih os)

namespace Store

variable {store : Store} {s : ℕ} {l : IntegerLedger}

/-- The amounts of commands have at most so many digits after the point. -/
def Scaled (s : ℕ) (vs : List Visit) : Prop :=
  ∀ v ∈ vs, ∀ amount ∈ v.command.amount?, amount.value.scale ≤ s

instance (s : ℕ) (vs : List Visit) : Decidable (Scaled s vs) :=
  inferInstanceAs (Decidable (∀ v ∈ vs, _))

theorem Ready.follows (h : store.Ready) (hl : store.book.Counted s l) (hs : s ≤ Decimal.maxScale)
    (hcap : store.book.total ≤ (2 ^ 96 - 1) / 10 ^ s) (v : Visit)
    (hscale : ∀ amount ∈ v.command.amount?, amount.value.scale ≤ s) :
    Follows s store.book v.command (v.judge store.book) (l.serve s v) := by
  have hd := h.reached.distinct
  unfold Visit.judge IntegerLedger.serve
  cases hcommand : v.command with
  | create request id initial =>
    exact hl.follows_create hd (hscale initial (by rw [hcommand]; rfl))
  | transfer request source destination amount =>
    exact hl.follows_transfer h.reached.kept hd hs hcap (hscale amount (by rw [hcommand]; rfl))
  | get id => exact hl.follows_get

theorem Ready.refines {vs : List Visit} (h : store.Ready) (hl : store.book.Counted s l)
    (hs : s ≤ Decimal.maxScale) (hscale : Scaled s vs)
    (hcap : store.book.total + deposited vs (store.serveAll vs).1 ≤ (2 ^ 96 - 1) / 10 ^ s) :
    List.Forall₂ (fun o w => ∃ o', o = some o' ∧ w.Stands s o') (store.serveAll vs).1
      (l.serveAll s vs).1 ∧
    (store.serveAll vs).2.book.Counted s (l.serveAll s vs).2 ∧
    (store.serveAll vs).2.book.total =
      store.book.total + deposited vs (store.serveAll vs).1 := by
  induction vs generalizing store l with
  | nil => exact ⟨.nil, hl, (add_zero _).symm⟩
  | cons v rest ih =>
    obtain ⟨ho, hquiet, hbook⟩ := h.serve_eq v
    have hserveAll : store.serveAll (v :: rest) =
        ((store.serve v).1 :: ((store.serve v).2.serveAll rest).1,
          ((store.serve v).2.serveAll rest).2) := rfl
    rw [hserveAll, deposited_cons] at hcap ⊢
    -- deposits only add up, so what fits at the end fits before each command
    have hfirst := v.deposit_nonneg (store.serve v).1
    have hlater := deposited_nonneg rest ((store.serve v).2.serveAll rest).1
    obtain ⟨hstands, hcounted, htotal⟩ := h.follows hl hs (by linarith) v
      (hscale v List.mem_cons_self)
    rw [← hbook] at hcounted htotal
    have hdeposit : v.deposit (store.serve v).1 =
        if (v.judge store.book).isOk then v.command.deposit else 0 := by
      rw [ho]
      cases v.judge store.book <;> rfl
    rw [← hdeposit] at htotal
    obtain ⟨houtcomes, hcounted', htotal'⟩ := ih (h.serve v) hcounted
      (fun v' hv' => hscale v' (List.mem_cons_of_mem _ hv')) (by rw [htotal]; linarith)
    refine ⟨.cons ⟨_, ho, hstands⟩ houtcomes, hcounted', ?_⟩
    rw [htotal', htotal, add_assoc]

theorem exists_of_forall₂ {α β : Type} {R : α → β → Prop} {as : List α} {bs : List β}
    (h : List.Forall₂ R as bs) {a : α} (ha : a ∈ as) : ∃ b ∈ bs, R a b := by
  induction h with
  | nil => cases ha
  | @cons a' b as bs hab _ ih =>
    rcases List.mem_cons.mp ha with rfl | ha
    · exact ⟨b, List.mem_cons_self, hab⟩
    · obtain ⟨b', hb', hR⟩ := ih ha
      exact ⟨b', List.mem_cons_of_mem _ hb', hR⟩

/-- Commands that are run one after the other on an empty store, with amounts of at most `s` digits
after the point, come to what they come to on whole numbers of units of 10^-s, as long as the sum of
all initial balances is at most (2^96 - 1) / 10^s. Every balance is its number of units, without any
rounding; the sum of all is what was deposited, so that transfers do not change it; no balance
overflows, and nothing else does before there are 2^63 commands. -/
theorem refines_integer_ledger {s : ℕ} (hs : s ≤ 28) (vs : List Visit) (hscale : Scaled s vs)
    (hfits : deposited vs (serveAll {} vs).1 ≤ (2 ^ 96 - 1) / 10 ^ s) :
    List.Forall₂ (fun o w => ∃ o', o = some o' ∧ w.Stands s o') (serveAll {} vs).1
      (IntegerLedger.serveAll s {} vs).1 ∧
    (∀ id, ((serveAll {} vs).2.book.row id).map (fun a => a.balance.toRat) =
      ((IntegerLedger.serveAll s {} vs).2.balance id).map fun n : ℤ => (n : ℚ) / 10 ^ s) ∧
    (serveAll {} vs).2.book.total = deposited vs (serveAll {} vs).1 ∧
    ∀ what, some (.failed (.overflow what)) ∈ (serveAll {} vs).1 →
      what = .sequence ∧ 2 ^ 63 ≤ vs.length := by
  have hempty : ({} : Store).book.total = 0 := rfl
  have hfits' : ({} : Store).book.total + deposited vs (serveAll {} vs).1 ≤ (2 ^ 96 - 1) / 10 ^ s := by
    rwa [hempty, zero_add]
  obtain ⟨houtcomes, hcounted, htotal⟩ :=
    ready_empty.refines (Book.counted_empty s) hs hscale hfits'
  refine ⟨houtcomes, fun id => ?_, ?_, fun what hwhat => ?_⟩
  · cases hrow : (serveAll {} vs).2.book.row id with
    | none =>
      rw [hcounted.row_eq_none_iff.mp hrow]
      rfl
    | some a =>
      obtain ⟨n, hn, hcounts, -⟩ := hcounted.exists_balance hrow
      rw [hn, Option.map_some, Option.map_some, hcounts.toRat]
  · rw [htotal, hempty, zero_add]
  · obtain ⟨w, hw, o, ho, hstands⟩ := exists_of_forall₂ houtcomes hwhat
    cases ho
    cases hstands
    refine ⟨rfl, ?_⟩
    by_contra hfew
    have hentries : ∀ id, (({} : IntegerLedger).entries id) + 2 * vs.length < 2 ^ 64 := by
      intro id
      change 0 + 2 * vs.length < 2 ^ 64
      omega
    exact IntegerLedger.exhausted_not_mem hentries hw

def tenthMoved : List Visit :=
  [.opens System.txA System.idA System.ten, .opens System.txB System.idB System.tenth,
    .moves System.txC System.idA System.idB System.tenth, .prompt (.get System.idB)]

theorem refines_integer_ledger_tenth :
    1 ≤ 28 ∧ Scaled 1 tenthMoved ∧
    deposited tenthMoved (serveAll {} tenthMoved).1 ≤ (2 ^ 96 - 1) / 10 ^ 1 ∧
    (IntegerLedger.serveAll 1 {} tenthMoved).1 =
      [.account System.idA 100, .account System.idB 1, .moved, .account System.idB 2] ∧
    List.Forall₂ (fun o w => ∃ o', o = some o' ∧ w.Stands 1 o') (serveAll {} tenthMoved).1
      (IntegerLedger.serveAll 1 {} tenthMoved).1 := by
  have hscale : Scaled 1 tenthMoved := by decide +kernel
  have hfits : deposited tenthMoved (serveAll {} tenthMoved).1 ≤ (2 ^ 96 - 1) / 10 ^ 1 := by
    decide +kernel
  have hverdicts : (IntegerLedger.serveAll 1 {} tenthMoved).1 =
      [.account System.idA 100, .account System.idB 1, .moved, .account System.idB 2] := by
    decide +kernel
  exact ⟨by decide, hscale, hfits, hverdicts,
    (refines_integer_ledger (by decide) tenthMoved hscale hfits).1⟩

end Store

end Bookkeeping
