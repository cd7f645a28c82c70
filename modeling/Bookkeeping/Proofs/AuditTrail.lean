import Bookkeeping.AuditLine
import Bookkeeping.Proofs.Balances
import Bookkeeping.Proofs.Replay
import Bookkeeping.Proofs.Streams

/-! # Audit trails

The audit lines of an account add up to its balance, and after none of them was the account
overdrawn. A debit is covered by the balance when it is made, and a sum or difference that is not
negative is not rounded to a negative decimal.
-/
namespace Bookkeeping
open Bookkeeping.Time

namespace AuditLine

/-- The balance after a line. An opening itself moves nothing. -/
def applyTo (balance : Decimal) (l : AuditLine) : Option Decimal :=
  match l.direction with
  | .opened => some balance
  | .incoming => balance.add? l.amount.value
  | .outgoing => balance.sub? l.amount.value

def total (ls : List AuditLine) : Option Decimal := ls.foldlM applyTo .zero

variable {d : Draft} {l : AuditLine} {ds : List Draft} {ls : List AuditLine}

theorem ofDraft_eq_ok {e : Event} (he : d.event = .ok e) :
    ofDraft d = .ok
      { account := d.account, sequence := d.sequence, kind := d.kind, direction := (movement e).1
        amount := (movement e).2.1, counterparty := (movement e).2.2
        transaction := d.transaction } := by
  rw [ofDraft, he]
  rfl

theorem applyTo_ofDraft (h : ofDraft d = .ok l) (balance : Decimal) :
    l.applyTo balance = d.applyTo balance := by
  cases he : d.event with
  | error e =>
    rw [ofDraft, he] at h
    cases h
  | ok e =>
    rw [ofDraft_eq_ok he] at h
    cases h
    rw [Draft.applyTo, he]
    cases e <;> rfl

theorem sequence_ofDraft (h : ofDraft d = .ok l) : l.sequence = d.sequence := by
  cases he : d.event with
  | error e =>
    rw [ofDraft, he] at h
    cases h
  | ok e =>
    rw [ofDraft_eq_ok he] at h
    cases h
    rfl

theorem exists_ofDraft {balance after : Decimal} (h : d.applyTo balance = some after) :
    ∃ l, ofDraft d = .ok l := by
  unfold Draft.applyTo at h
  split at h
  · rename_i e he
    exact ⟨_, ofDraft_eq_ok he⟩
  · cases h

theorem ofDrafts_eq_ok (h : List.Forall₂ (fun d l => ofDraft d = .ok l) ds ls) :
    ofDrafts ds = .ok ls := by
  induction h with
  | nil => rfl
  | cons hd _ ih =>
    rw [ofDrafts, List.mapM_cons, hd]
    exact congrArg (fun ls => ls >>= fun ls => pure (_ :: ls)) ih

theorem exists_lines {balance after : Decimal}
    (h : ds.foldlM Draft.applyTo balance = some after) :
    ∃ ls, List.Forall₂ (fun d l => ofDraft d = .ok l) ds ls := by
  induction ds generalizing balance with
  | nil => exact ⟨[], .nil⟩
  | cons d ds ih =>
    rw [List.foldlM_cons] at h
    obtain ⟨next, hd, hds⟩ := Option.bind_eq_some_iff.mp h
    obtain ⟨l, hl⟩ := exists_ofDraft hd
    obtain ⟨ls, hls⟩ := ih hds
    exact ⟨l :: ls, .cons hl hls⟩

theorem map_sequence (h : List.Forall₂ (fun d l => ofDraft d = .ok l) ds ls) :
    ds.map (·.sequence.value) = ls.map (·.sequence.value) := by
  induction h with
  | nil => rfl
  | cons hd _ ih => rw [List.map_cons, List.map_cons, ih, sequence_ofDraft hd]

/-- Lines with which others begin are those of entries with which others begin. -/
theorem exists_prefix {before : List AuditLine}
    (h : List.Forall₂ (fun d l => ofDraft d = .ok l) ds ls) (hbefore : before <+: ls) :
    ∃ front, front <+: ds ∧ List.Forall₂ (fun d l => ofDraft d = .ok l) front before := by
  rw [List.prefix_iff_eq_take.mp hbefore]
  exact ⟨ds.take before.length, List.take_prefix _ _, List.forall₂_take _ h⟩

theorem total_eq_replay (h : List.Forall₂ (fun d l => ofDraft d = .ok l) ds ls) :
    total ls = replay ds := by
  rw [total, replay]
  generalize Decimal.zero = balance
  induction h generalizing balance with
  | nil => rfl
  | cons hd _ ih =>
    rw [List.foldlM_cons, List.foldlM_cons, applyTo_ofDraft hd]
    exact congrArg _ (funext ih)

end AuditLine

namespace Account

variable {a : Account} {amount : Amount} {now : Instant}

theorem nonneg_of_debit {debited : Account} (h : a.debited amount now = .ok debited) :
    .zero ≤ debited.balance := by
  have hcovers := covers_iff.mp ((covers_iff_exists_debit now).mpr ⟨debited, h⟩)
  rw [← Decimal.toRat_nonneg_iff]
  exact (Decimal.rounds_of_sub? (sub?_of_debit h)).nonneg (sub_nonneg.mpr hcovers)

theorem nonneg_of_credit {credited : Account} (h : a.credited amount now = .ok credited)
    (ha : .zero ≤ a.balance) : .zero ≤ credited.balance := by
  rw [← Decimal.toRat_nonneg_iff] at ha ⊢
  exact (Decimal.rounds_of_add? (add?_of_credit h)).nonneg (add_nonneg ha amount.toRat_pos.le)

end Account

/-- No beginning of a stream takes out more than it has put in. -/
def Solvent (ds : List Draft) : Prop :=
  ∀ before, before <+: ds → ∃ balance, replay before = some balance ∧ .zero ≤ balance

namespace Solvent

variable {ds : List Draft} {d : Draft} {balance : Decimal}

theorem nil : Solvent [] := by
  intro before hbefore
  rw [List.prefix_nil.mp hbefore]
  exact ⟨.zero, rfl, Decimal.toRat_le_iff.mp le_rfl⟩

theorem concat (h : Solvent ds) (hlast : replay (ds ++ [d]) = some balance)
    (hbalance : .zero ≤ balance) : Solvent (ds ++ [d]) := by
  intro before hbefore
  rcases List.prefix_concat_iff.mp hbefore with rfl | hbefore
  · exact ⟨balance, hlast, hbalance⟩
  · exact h before hbefore

theorem nonneg (h : Solvent ds) (hlast : replay ds = some balance) : .zero ≤ balance := by
  obtain ⟨_, heq, hnonneg⟩ := h ds (List.prefix_refl ds)
  rw [hlast] at heq
  cases heq
  exact hnonneg

end Solvent

namespace Book

variable {b : Book}

theorem solvent_opening (settings : Settings) (request : Request) (id : AccountId)
    (initial : Amount) :
    Solvent [request.draft settings id .first (.opened initial),
      request.draft settings id .second (.deposited Workflow.systemSource initial)] := by
  have hfirst : Solvent ([] ++ [request.draft settings id .first (.opened initial)]) := by
    refine Solvent.nil.concat ?_ (Decimal.toRat_le_iff.mp le_rfl)
    simp [replay, Request.applyTo_draft, Event.applyTo]
  refine hfirst.concat ?_ (Decimal.toRat_nonneg_iff.mp initial.toRat_pos.le)
  simp [replay, Request.applyTo_draft, Event.applyTo, Decimal.zero_add?]

theorem solvent_post {settings : Settings} {command : Command} {readings : List Instant}
    {p : Posting} (hb : b.Balanced) (h : ∀ id, Solvent (b.stream id))
    (hp : command.Posts settings readings b p) (other : AccountId) :
    Solvent ((b.post p).stream other) := by
  have hbalanced := hb.post hp other
  cases hp with
  | @opening request id initial now _ _ hnone hnil =>
    rw [stream_post_opening]
    split
    · rename_i he
      subst he
      rw [hnil]
      exact solvent_opening settings request id initial
    · exact h other
  | @movement request source destination amount checked now _ a c debited credited n m _ hne hs hd
      hdebit hcredit hn hm =>
    have hds := (Account.debit_id hdebit).trans (row_id hs)
    have hcd := (Account.credit_id hcredit).trans (row_id hd)
    rw [row_post_movement _ _ _ _ hds hcd, stream_post_movement _ _ _ hne] at hbalanced
    rw [stream_post_movement _ _ _ hne]
    split at hbalanced
    · rename_i he
      subst he
      rw [if_neg hne] at hbalanced
      rw [if_neg hne, if_pos rfl]
      have hnonneg := (h destination).nonneg (hb destination c hd)
      exact (h destination).concat (hbalanced credited rfl) (Account.nonneg_of_credit hcredit hnonneg)
    · rename_i hdest
      split at hbalanced
      · rename_i he
        subst he
        rw [if_pos rfl]
        exact (h source).concat (hbalanced debited rfl) (Account.nonneg_of_debit hdebit)
      · rename_i hsource
        rw [if_neg hsource, if_neg hdest]
        exact h other

theorem Reached.solvent (h : b.Reached) (id : AccountId) : Solvent (b.stream id) := by
  induction h generalizing id with
  | empty => exact Solvent.nil
  | post hb hp ih => exact solvent_post hb.balanced ih hp id

end Book

/-- After every run the audit lines of an account can be made, one for each entry and in the order of
their numbers. What they add up to is never negative on the way, and it is at last the balance of the
row, if there is one; without a row there is no line. -/
theorem System.no_overdraft (actions : List Action) (id : AccountId) :
    ∃ lines, AuditLine.ofEntries ((run empty actions).store.entriesFor id) = .ok lines ∧
      List.Forall₂ (fun e l => AuditLine.ofDraft e.toDraft = .ok l)
        ((run empty actions).store.entriesFor id) lines ∧
      lines.map (·.sequence.value) = List.range' 1 lines.length ∧
      (∀ before, before <+: lines →
        ∃ balance, AuditLine.total before = some balance ∧ .zero ≤ balance) ∧
      (findRow id (run empty actions).store.rows = none ↔ lines = []) ∧
      ∀ a, findRow id (run empty actions).store.rows = some a →
        AuditLine.total lines = some a.balance ∧ .zero ≤ a.balance := by
  have hreached := (Orderly.run actions).reached
  have hsolvent := hreached.solvent id
  have hbalanced := hreached.balanced id
  have hbacked := hreached.kept.backed id
  have hnumbers := hreached.kept.numbers id
  rw [← Store.map_toDraft_entriesFor hreached.kept] at hsolvent hbalanced hbacked hnumbers
  obtain ⟨_, htotal, -⟩ := hsolvent _ (List.prefix_refl _)
  obtain ⟨lines, hlines⟩ := AuditLine.exists_lines htotal
  refine ⟨lines, AuditLine.ofDrafts_eq_ok hlines, List.forall₂_map_left_iff.mp hlines, ?_, ?_, ?_, ?_⟩
  · rw [← AuditLine.map_sequence hlines, ← hlines.length_eq]
    exact hnumbers
  · intro before hbefore
    obtain ⟨front, hfront, hlines'⟩ := AuditLine.exists_prefix hlines hbefore
    rw [AuditLine.total_eq_replay hlines']
    exact hsolvent front hfront
  · rw [← List.length_eq_zero_iff, ← hlines.length_eq, List.length_eq_zero_iff]
    exact hbacked
  · intro a ha
    rw [AuditLine.total_eq_replay hlines]
    exact ⟨hbalanced a ha, hsolvent.nonneg (hbalanced a ha)⟩

end Bookkeeping
