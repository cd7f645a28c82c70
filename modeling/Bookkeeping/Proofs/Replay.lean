import Bookkeeping.Proofs.Orderly
import Bookkeeping.Proofs.Payloads

/-! # Balances are what streams add up to

The balance of a row is kept beside the stream of the account and never read from it. Replaying the
stored payloads of the stream from zero nevertheless gives the same decimal, in every book that
postings can make and so after every run.
-/
namespace Bookkeeping
open Bookkeeping.Time

/-- The balance after an event. The opening itself moves nothing. -/
def Event.applyTo (balance : Decimal) : Event → Option Decimal
  | .opened _ => some balance
  | .deposited _ a => balance.add? a.value
  | .debited _ a => balance.sub? a.value
  | .credited _ a => balance.add? a.value

def Draft.applyTo (balance : Decimal) (d : Draft) : Option Decimal :=
  match d.event with
  | .ok e => e.applyTo balance
  | .error _ => none

def replay (stream : List Draft) : Option Decimal := stream.foldlM Draft.applyTo .zero

theorem replay_append (before after : List Draft) :
    replay (before ++ after) = (replay before).bind fun balance =>
      after.foldlM Draft.applyTo balance := by
  rw [replay, List.foldlM_append]
  rfl

theorem Request.applyTo_draft (settings : Settings) (request : Request) (id : AccountId)
    (n : SequenceNumber) (e : Event) (balance : Decimal) :
    (request.draft settings id n e).applyTo balance = e.applyTo balance := by
  have he : (request.draft settings id n e).event = .ok e := Draft.event_eq_ok rfl rfl
  rw [Draft.applyTo, he]

theorem Decimal.zero_add? (a : Decimal) : Decimal.zero.add? a = some a := if_pos rfl

namespace Account

theorem sub?_of_debit {a debited : Account} {amount : Amount} {now : Instant}
    (h : a.debited amount now = .ok debited) :
    a.balance.sub? amount.value = some debited.balance := by
  rw [debited_eq] at h
  split at h
  · split at h
    · cases h; assumption
    · cases h
  · cases h

theorem add?_of_credit {a credited : Account} {amount : Amount} {now : Instant}
    (h : a.credited amount now = .ok credited) :
    a.balance.add? amount.value = some credited.balance := by
  rw [credited_eq] at h
  split at h
  · cases h; assumption
  · cases h

end Account

namespace Book

variable {b : Book}

/-- Each balance is what the stream of its account adds up to. -/
def Balanced (b : Book) : Prop :=
  ∀ id a, b.row id = some a → replay (b.stream id) = some a.balance

theorem balanced_empty : ({} : Book).Balanced := by
  simp [Balanced]

theorem Balanced.post {settings : Settings} {command : Command} {readings : List Instant}
    {p : Posting} (h : b.Balanced) (hp : command.Posts settings readings b p) :
    (b.post p).Balanced := by
  intro other x hx
  cases hp with
  | @opening request id initial now _ _ hnone hnil =>
    rw [row_post_opening] at hx
    rw [stream_post_opening]
    split at hx
    · rename_i he
      subst he
      cases hx
      rw [if_pos rfl, hnil]
      simp [replay, Request.applyTo_draft, Event.applyTo, Decimal.zero_add?, Account.opened]
    · rename_i hne
      rw [if_neg hne]
      exact h other x hx
  | @movement request source destination amount checked now _ a c debited credited n m _ hne hs hd
      hdebit hcredit hn hm =>
    have hds := (Account.debit_id hdebit).trans (row_id hs)
    have hcd := (Account.credit_id hcredit).trans (row_id hd)
    rw [row_post_movement _ _ _ _ hds hcd] at hx
    rw [stream_post_movement _ _ _ hne]
    split at hx
    · rename_i he
      subst he
      cases hx
      rw [if_neg hne, if_pos rfl, replay_append, h _ c hd]
      simp [Request.applyTo_draft, Event.applyTo, Account.add?_of_credit hcredit]
    · rename_i hdest
      split at hx
      · rename_i he
        subst he
        cases hx
        rw [if_pos rfl, replay_append, h _ a hs]
        simp [Request.applyTo_draft, Event.applyTo, Account.sub?_of_debit hdebit]
      · rename_i hsource
        rw [if_neg hsource, if_neg hdest]
        exact h other x hx

theorem Reached.balanced (h : b.Reached) : b.Balanced := by
  induction h with
  | empty => exact balanced_empty
  | post _ hp ih => exact ih.post hp

end Book

/-- After every run an account has a row if and only if it has a stream, and replaying the stream
in the order of its numbers gives the balance of the row. -/
theorem System.balance_eq_replay (actions : List Action) (id : AccountId) :
    (findRow id (run empty actions).store.rows ≠ none ↔
      (run empty actions).store.entriesFor id ≠ []) ∧
    ∀ a, findRow id (run empty actions).store.rows = some a →
      replay (((run empty actions).store.entriesFor id).map (·.toDraft)) = some a.balance := by
  have hreached := (Orderly.run actions).reached
  have hstream := Store.map_toDraft_entriesFor hreached.kept id
  refine ⟨not_congr ?_, fun a ha => ?_⟩
  · rw [← List.map_eq_nil_iff, hstream]
    exact hreached.kept.backed id
  · rw [hstream]
    exact hreached.balanced id a ha

end Bookkeeping
