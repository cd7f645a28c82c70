import Bookkeeping.Proofs.Conservation
import Bookkeeping.Proofs.Payloads

/-! # Double entry

A transfer is recorded on both of its accounts. What either of them holds of it says what the other
one holds: one entry of the same transaction, with the same amount in the opposite direction.
-/
namespace Bookkeeping
open Bookkeeping.Time

namespace Event

def party? : Event → Option AccountId
  | .debited destination _ => some destination
  | .credited source _ => some source
  | .opened _ | .deposited .. => none

/-- The event of one account as the other account of a transfer records it. -/
def mirror (id : AccountId) : Event → Event
  | .debited _ amount => .credited id amount
  | .credited _ amount => .debited id amount
  | e => e

end Event

theorem Request.event_draft (settings : Settings) (request : Request) (id : AccountId)
    (n : SequenceNumber) (e : Event) : (request.draft settings id n e).event = .ok e :=
  Draft.event_eq_ok rfl rfl

/-- A posting that names another account with one of its drafts has one draft on that account. -/
theorem Command.Posts.mirrored {settings : Settings} {command : Command} {readings : List Instant}
    {b : Book} {p : Posting} (h : command.Posts settings readings b p) {d : Draft}
    (hd : d ∈ p.drafts) {e : Event} (he : d.event = .ok e) {other : AccountId}
    (hparty : e.party? = some other) :
    d.account ≠ other ∧ other ∈ command.accounts ∧
      ∃ d', p.drafts.filter (fun x => x.account = other) = [d'] ∧
        d'.event = .ok (e.mirror d.account) := by
  cases h with
  | opening =>
    -- neither of the two opening events names another account
    simp only [Posting.opening, List.mem_cons, List.not_mem_nil, or_false] at hd
    rcases hd with rfl | rfl <;>
    · rw [Request.event_draft] at he
      cases he
      cases hparty
  | @movement request source destination amount checked now b a c debited credited n m _ hne =>
    simp only [Posting.movement, List.mem_cons, List.not_mem_nil, or_false] at hd
    rcases hd with rfl | rfl
    · rw [Request.event_draft] at he
      cases he
      cases hparty
      refine ⟨hne, by simp [accounts], request.draft settings other m (.credited source amount),
        ?_, Request.event_draft ..⟩
      simp [Posting.movement, Request.draft, hne]
    · rw [Request.event_draft] at he
      cases he
      cases hparty
      refine ⟨hne.symm, by simp [accounts], request.draft settings other n (.debited destination amount),
        ?_, Request.event_draft ..⟩
      simp [Posting.movement, Request.draft, hne.symm]

theorem Command.Posts.exists_event {settings : Settings} {command : Command}
    {readings : List Instant} {b : Book} {p : Posting} (h : command.Posts settings readings b p)
    {d : Draft} (hd : d ∈ p.drafts) : ∃ e : Event, d.event = .ok e ∧ d.kind = e.kind := by
  cases h with
  | opening =>
    simp only [Posting.opening, List.mem_cons, List.not_mem_nil, or_false] at hd
    rcases hd with rfl | rfl <;> exact ⟨_, Request.event_draft .., rfl⟩
  | movement =>
    simp only [Posting.movement, List.mem_cons, List.not_mem_nil, or_false] at hd
    rcases hd with rfl | rfl <;> exact ⟨_, Request.event_draft .., rfl⟩

/-- Two accounts exist, and the second one has just one entry of a transaction, which holds this
event. -/
structure Store.Mirrors (s : Store) (id other : AccountId) (t : TransactionId) (e : Event) : Prop where
  ne : id ≠ other
  row : s.book.row id ≠ none
  other_row : s.book.row other ≠ none
  entry : ∃ e', (s.entriesFor other).filter (fun x => x.transaction = t) = [e'] ∧ e'.event = .ok e

theorem Store.row_ne_none {s : Store} (hk : s.book.Kept) {id : AccountId} {x : Entry}
    (hx : x ∈ s.entriesFor id) : s.book.row id ≠ none := by
  intro hnone
  have hmem : x.toDraft ∈ s.book.stream id := by
    rw [← Store.map_toDraft_entriesFor hk]
    exact List.mem_map_of_mem hx
  rw [(hk.backed id).mp hnone] at hmem
  cases hmem

namespace System

variable {s : System}

theorem Apart.mirrors (h : s.Apart) (hk : s.store.book.Kept) {id other : AccountId} {x : Entry}
    (hx : x ∈ s.store.entriesFor id) {e : Event} (he : x.event = .ok e)
    (hparty : e.party? = some other) : s.store.Mirrors id other x.transaction (e.mirror id) := by
  obtain ⟨i, -, t, p, hw, htx, -, hdraft, hacc⟩ := h.exists_wrote hk hx
  obtain ⟨b, hp⟩ := hw.posts
  obtain ⟨hne, hother, d', hfilter, hevent⟩ := hp.mirrored hdraft he hparty
  rw [hacc] at hne hevent
  have hsingle := (hw.filter_entriesFor hk htx hother).trans hfilter
  obtain ⟨e', hentries, rfl⟩ := List.map_eq_singleton_iff.mp hsingle
  have hin : e' ∈ s.store.entriesFor other :=
    (List.mem_filter.mp (hentries ▸ List.mem_singleton_self e')).1
  exact ⟨hne, Store.row_ne_none hk hx, Store.row_ne_none hk hin, e', hentries, hevent⟩

/-- On a store without faults every entry holds an event. Whenever it is a debit, its destination is
another account that exists and holds one entry of this transaction, a credit of the same amount from
the account; and whenever it is a credit, its source holds one entry of the transaction, the debit. -/
theorem double_entry (actions : List Action) (plain : ∀ a ∈ actions, a.arms = false)
    (id : AccountId) (x : Entry) (hx : x ∈ (run empty actions).store.entriesFor id) :
    (∃ e : Event, x.event = .ok e ∧ x.kind = e.kind) ∧
    ∀ other amount,
      (x.event = .ok (.debited other amount) →
        (run empty actions).store.Mirrors id other x.transaction (.credited id amount)) ∧
      (x.event = .ok (.credited other amount) →
        (run empty actions).store.Mirrors id other x.transaction (.debited id amount)) := by
  have hapart := Apart.run plain
  have hkept := (Orderly.run actions).reached.kept
  refine ⟨?_, fun other amount => ⟨fun he => ?_, fun he => ?_⟩⟩
  · obtain ⟨i, -, t, p, hw, -, -, hdraft, -⟩ := hapart.exists_wrote hkept hx
    obtain ⟨b, hp⟩ := hw.posts
    exact hp.exists_event hdraft
  · exact hapart.mirrors hkept hx he rfl
  · exact hapart.mirrors hkept hx he rfl

theorem double_entry_tenth :
    (∀ a ∈ uncommitted ten ten tenth ++ [final], a.arms = false) ∧
    ∃ x ∈ (run empty (uncommitted ten ten tenth ++ [final])).store.entriesFor idA,
      x.event = .ok (.debited idB tenth) ∧
      (run empty (uncommitted ten ten tenth ++ [final])).store.Mirrors idA idB x.transaction
        (.credited idA tenth) := by
  have hplain : ∀ a ∈ uncommitted ten ten tenth ++ [final], a.arms = false := by decide
  have hentry : ((run empty (uncommitted ten ten tenth ++ [final])).store.entries[4]?).map
      (fun x => (x.account, x.event)) = some (idA, .ok (.debited idB tenth)) := by decide +kernel
  obtain ⟨x, hx, hboth⟩ := Option.map_eq_some_iff.mp hentry
  obtain ⟨hacc, hevent⟩ := Prod.mk.inj hboth
  have hkept := (Orderly.run (uncommitted ten ten tenth ++ [final])).reached.kept
  have hmem : x ∈ (run empty (uncommitted ten ten tenth ++ [final])).store.entriesFor idA := by
    rw [Store.entriesFor_eq_filter hkept]
    exact List.mem_filter.mpr ⟨List.mem_of_getElem? hx, by simpa using hacc⟩
  exact ⟨hplain, x, hmem, hevent, ((double_entry _ hplain idA x hmem).2 idB tenth).1 hevent⟩

end System

end Bookkeeping
