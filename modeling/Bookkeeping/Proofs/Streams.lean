import Bookkeeping.Proofs.Orderly

/-! # The shape of streams

An account that exists has a stream that begins with its opening and its first deposit, which are of
one amount and one transaction, and goes on with debits and credits only. Its entries are numbered
from 1 in the order of their commits, so that the last one committed is the one with the largest
number.
-/
namespace Bookkeeping
open Bookkeeping.Time

inductive Draft.IsMove (id : AccountId) : Draft → Prop where
  | debit (settings : Settings) (request : Request) (n : SequenceNumber) (destination : AccountId)
      (amount : Amount) : IsMove id (request.draft settings id n (.debited destination amount))
  | credit (settings : Settings) (request : Request) (n : SequenceNumber) (source : AccountId)
      (amount : Amount) : IsMove id (request.draft settings id n (.credited source amount))

/-- The stream of an account that does not exist, or that was opened with an amount. -/
inductive Stream (id : AccountId) : List Draft → Prop where
  | empty : Stream id []
  | opened (settings : Settings) (request : Request) (initial : Amount) {moves : List Draft}
      (h : ∀ d ∈ moves, d.IsMove id) :
      Stream id
        (request.draft settings id .first (.opened initial) ::
          request.draft settings id .second (.deposited Workflow.systemSource initial) :: moves)

theorem Stream.concat {id : AccountId} {ds : List Draft} {d : Draft} (h : Stream id ds)
    (hne : ds ≠ []) (hd : d.IsMove id) : Stream id (ds ++ [d]) := by
  cases h with
  | empty => exact absurd rfl hne
  | @opened settings request initial moves hmoves =>
    refine .opened settings request initial ?_
    intro d' hd'
    rcases List.mem_append.mp hd' with hd' | hd'
    · exact hmoves d' hd'
    · exact List.mem_singleton.mp hd' ▸ hd

namespace Book

variable {b : Book}

theorem stream_post_shape {settings : Settings} {command : Command} {readings : List Instant}
    {p : Posting} (hb : ∀ id, Stream id (b.stream id)) (hk : b.Kept)
    (hp : command.Posts settings readings b p) (id : AccountId) : Stream id ((b.post p).stream id) := by
  cases hp with
  | opening _ _ hstream =>
    rw [stream_post_opening]
    split
    · rename_i he
      subst he
      rw [hstream]
      exact .opened _ _ _ (by simp)
    · exact hb id
  | movement _ hne hs hd hdebit hcredit hn hm =>
    rw [stream_post_movement _ _ _ hne]
    split
    · rename_i he
      subst he
      exact (hb _).concat (hk.stream_ne_nil hs) (.debit ..)
    · split
      · rename_i he
        subst he
        exact (hb _).concat (hk.stream_ne_nil hd) (.credit ..)
      · exact hb id

theorem Reached.stream (h : b.Reached) (id : AccountId) : Stream id (b.stream id) := by
  induction h generalizing id with
  | empty => exact .empty
  | post hb hp ih => exact stream_post_shape ih hb.kept hp id

end Book

namespace Store

variable {s : Store}

/-- Where numbers do not decrease the later of two entries is the last one. -/
theorem foldl_laterEntry_eq_getLast? {es : List Entry}
    (h : es.Pairwise fun a b => a.sequence ≤ b.sequence) :
    es.foldl laterEntry none = es.getLast? := by
  induction es using List.reverseRecOn with
  | nil => rfl
  | append_singleton es e ih =>
    obtain ⟨hes, -, hlast⟩ := List.pairwise_append.mp h
    rw [List.foldl_append, ih hes, List.getLast?_concat, List.foldl_cons, List.foldl_nil]
    cases hbefore : es.getLast? with
    | none => rfl
    | some b => exact if_pos (hlast b (List.mem_of_getLast? hbefore) e (by simp))

theorem lastOf_eq_getLast? (h : s.book.Kept) (id : AccountId) :
    lastOf id s.entries = (s.entriesFor id).getLast? := by
  rw [lastOf, foldl_laterEntry_eq_getLast? (pairwise_sequence h id), entriesFor_eq_filter h]

theorem map_sequence_entriesFor (h : s.book.Kept) (id : AccountId) :
    (s.entriesFor id).map (·.sequence.value) = List.range' 1 (s.entriesFor id).length := by
  have hnum := h.numbers id
  rw [← map_toDraft_entriesFor h, List.map_map, List.length_map] at hnum
  exact hnum

theorem sequence_getLast? (h : s.book.Kept) (id : AccountId) :
    (((s.entriesFor id).getLast?).map (·.sequence.value)).getD 0 = (s.entriesFor id).length := by
  rw [← List.getLast?_map, map_sequence_entriesFor h]
  cases hlen : (s.entriesFor id).length with
  | zero => rfl
  | succ n => rw [List.range'_1_concat, List.getLast?_concat, Option.getD_some, Nat.add_comm]

end Store

/-- After every run the stream of an account is empty or begins with its opening and its first deposit
and goes on with debits and credits, in the order of their commits and numbered from 1 without a gap;
the last entry that a lookup finds is the last of the stream, and its number is the length. -/
theorem System.stream_shape (actions : List Action) (id : AccountId) :
    Stream id (((run empty actions).store.entriesFor id).map (·.toDraft)) ∧
    ((run empty actions).store.entriesFor id =
      (run empty actions).store.entries.filter fun e => e.account = id) ∧
    ((run empty actions).store.entriesFor id).map (·.sequence.value) =
      List.range' 1 ((run empty actions).store.entriesFor id).length ∧
    (run empty actions).store.respond (.findLast id) =
      .replied (foundOr "event" ((run empty actions).store.entriesFor id).getLast?)
        (run empty actions).store ∧
    ((((run empty actions).store.entriesFor id).getLast?).map (·.sequence.value)).getD 0 =
      ((run empty actions).store.entriesFor id).length := by
  have hreached := (Orderly.run actions).reached
  refine ⟨?_, Store.entriesFor_eq_filter hreached.kept id,
    Store.map_sequence_entriesFor hreached.kept id, ?_, Store.sequence_getLast? hreached.kept id⟩
  · rw [Store.map_toDraft_entriesFor hreached.kept]
    exact hreached.stream id
  · rw [Store.respond, Store.lastOf_eq_getLast? hreached.kept]

end Bookkeeping
