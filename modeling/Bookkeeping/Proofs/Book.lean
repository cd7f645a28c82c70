import Bookkeeping.Command
import Bookkeeping.Store
import Mathlib.Data.List.Induction

/-! # Books and postings

A book is what a store has committed, without the keys of the entries. A posting is what one
successful command adds to it, taken as one indivisible act: this is what the workflows mean when
nothing else goes on. In every book that postings can make from nothing, the numbers of each stream
run from 1 without a gap, and exactly the accounts with a stream have a row.
-/
namespace Bookkeeping
open Bookkeeping.Time

/-- Committed rows, and committed drafts in the order of their commits. -/
structure Book where
  rows : List Account := []
  drafts : List Draft := []

/-- What a command adds to a book, the row written last first, and what it answers. -/
structure Posting where
  rows : List Account
  drafts : List Draft
  answer : Answer

namespace Book

def row (b : Book) (id : AccountId) : Option Account := findRow id b.rows

def stream (b : Book) (id : AccountId) : List Draft := b.drafts.filter fun d => d.account = id

def laterNumber (n : SequenceNumber) (d : Draft) : SequenceNumber :=
  if n ≤ d.sequence then d.sequence else n

/-- The largest number in a stream; the initial one if there is none. -/
def lastNumber (b : Book) (id : AccountId) : SequenceNumber :=
  (b.stream id).foldl laterNumber .initial

def post (b : Book) (p : Posting) : Book := ⟨p.rows.foldr putRow b.rows, b.drafts ++ p.drafts⟩

end Book

def Store.book (s : Store) : Book := ⟨s.rows, s.entries.map (·.toDraft)⟩

def Request.draft (settings : Settings) (request : Request) (account : AccountId)
    (sequence : SequenceNumber) (e : Event) : Draft where
  transaction := request.transaction
  sequence
  account
  aggregate := .account
  kind := e.kind
  payload := e.payload
  version := settings.version

def SequenceNumber.first : SequenceNumber := ⟨1, by decide⟩

def SequenceNumber.second : SequenceNumber := ⟨2, by decide⟩

namespace Posting

def opening (settings : Settings) (request : Request) (id : AccountId) (initial : Amount)
    (now : Instant) : Posting where
  rows := [.opened id initial now]
  drafts :=
    [request.draft settings id .first (.opened initial),
      request.draft settings id .second (.deposited Workflow.systemSource initial)]
  answer := .account (.opened id initial now)

/-- Moves an amount between two accounts, whose new rows and next numbers are given. -/
def movement (settings : Settings) (request : Request) (source destination : AccountId)
    (amount : Amount) (debited credited : Account) (n m : SequenceNumber) : Posting where
  rows := [credited, debited]
  drafts :=
    [request.draft settings source n (.debited destination amount),
      request.draft settings destination m (.credited source amount)]
  answer := .transferred

end Posting

namespace Command

/-- The name under which a command records what it does; lookups record nothing. -/
def transaction? : Command → Option TransactionId
  | .create request _ _ => some request.transaction
  | .transfer request _ _ _ => some request.transaction
  | .get _ => none

def accounts : Command → List AccountId
  | .create _ id _ => [id]
  | .transfer _ source destination _ => [source, destination]
  | .get _ => []

/-- A command that reads the clock as given adds a posting to a book. Whether its transaction is
recorded already is left open. -/
inductive Posts (settings : Settings) : Command → List Instant → Book → Posting → Prop where
  | opening {request : Request} {id : AccountId} {initial : Amount} {now : Instant} {b : Book}
      (fresh : Workflow.Fresh settings request now)
      (row : b.row id = none) (stream : b.stream id = []) :
      Posts settings (.create request id initial) [now] b
        (.opening settings request id initial now)
  | movement {request : Request} {source destination : AccountId} {amount : Amount}
      {checked now : Instant} {b : Book} {a c debited credited : Account} {n m : SequenceNumber}
      (fresh : Workflow.Fresh settings request checked) (ne : source ≠ destination)
      (source_row : b.row source = some a) (destination_row : b.row destination = some c)
      (debit : a.debited amount now = .ok debited) (credit : c.credited amount now = .ok credited)
      (source_next : (b.lastNumber source).next? = some n)
      (destination_next : (b.lastNumber destination).next? = some m) :
      Posts settings (.transfer request source destination amount) [checked, now] b
        (.movement settings request source destination amount debited credited n m)

end Command

/-! ## Rows and streams after a posting -/

theorem findRow_id {id : AccountId} {rows : List Account} {a : Account}
    (h : findRow id rows = some a) : a.id = id := by
  simpa using List.find?_some h

namespace Account

variable {a a' : Account} {amount : Amount} {now : Instant}

theorem debit_eq (h : a.debited amount now = .ok a') :
    a' = { a with balance := a'.balance, updatedAt := now } := by
  rw [debited_eq] at h
  split at h
  · split at h
    · cases h
      rfl
    · cases h
  · cases h

theorem credit_eq (h : a.credited amount now = .ok a') :
    a' = { a with balance := a'.balance, updatedAt := now } := by
  rw [credited_eq] at h
  split at h
  · cases h
    rfl
  · cases h

theorem debit_id (h : a.debited amount now = .ok a') : a'.id = a.id := by
  rw [debit_eq h]

theorem credit_id (h : a.credited amount now = .ok a') : a'.id = a.id := by
  rw [credit_eq h]

theorem debit_createdAt (h : a.debited amount now = .ok a') : a'.createdAt = a.createdAt := by
  rw [debit_eq h]

theorem credit_createdAt (h : a.credited amount now = .ok a') : a'.createdAt = a.createdAt := by
  rw [credit_eq h]

theorem debit_updatedAt (h : a.debited amount now = .ok a') : a'.updatedAt = now := by
  rw [debit_eq h]

theorem credit_updatedAt (h : a.credited amount now = .ok a') : a'.updatedAt = now := by
  rw [credit_eq h]

end Account

namespace Book

variable {b : Book} {id : AccountId}

theorem row_id {a : Account} (h : b.row id = some a) : a.id = id := findRow_id h

@[simp] theorem row_empty : ({} : Book).row id = none := rfl

@[simp] theorem stream_empty : ({} : Book).stream id = [] := rfl

@[simp] theorem stream_post (b : Book) (p : Posting) (id : AccountId) :
    (b.post p).stream id = b.stream id ++ p.drafts.filter fun d => d.account = id := by
  simp [stream, post]

theorem row_post_opening (b : Book) (settings : Settings) (request : Request) (id : AccountId)
    (initial : Amount) (now : Instant) (other : AccountId) :
    (b.post (.opening settings request id initial now)).row other =
      if id = other then some (.opened id initial now) else b.row other := by
  simp [row, post, Posting.opening, findRow_putRow, Account.opened]

theorem row_post_movement (b : Book) (settings : Settings) (request : Request)
    {source destination : AccountId} (amount : Amount) {debited credited : Account}
    (hd : debited.id = source) (hc : credited.id = destination) (n m : SequenceNumber)
    (other : AccountId) :
    (b.post (.movement settings request source destination amount debited credited n m)).row other =
      if destination = other then some credited
      else if source = other then some debited else b.row other := by
  simp [row, post, Posting.movement, findRow_putRow, hd, hc]

theorem stream_post_opening (b : Book) (settings : Settings) (request : Request) (id : AccountId)
    (initial : Amount) (now : Instant) (other : AccountId) :
    (b.post (.opening settings request id initial now)).stream other =
      if id = other then
        b.stream other ++
          [request.draft settings id .first (.opened initial),
            request.draft settings id .second (.deposited Workflow.systemSource initial)]
      else b.stream other := by
  by_cases h : id = other <;> simp [Posting.opening, Request.draft, h]

theorem stream_post_movement (b : Book) (settings : Settings) (request : Request)
    {source destination : AccountId} (hne : source ≠ destination) (amount : Amount)
    (debited credited : Account) (n m : SequenceNumber) (other : AccountId) :
    (b.post (.movement settings request source destination amount debited credited n m)).stream
        other =
      if source = other then
        b.stream other ++ [request.draft settings source n (.debited destination amount)]
      else if destination = other then
        b.stream other ++ [request.draft settings destination m (.credited source amount)]
      else b.stream other := by
  by_cases hs : source = other
  · subst hs
    simp [Posting.movement, Request.draft, Ne.symm hne]
  · by_cases hd : destination = other <;> simp [Posting.movement, Request.draft, hs, hd]

end Book

namespace Command.Posts

variable {settings : Settings} {command : Command} {readings : List Instant} {b : Book}
  {p : Posting} {id : AccountId}

theorem exists_transaction (h : command.Posts settings readings b p) :
    ∃ x, command.transaction? = some x := by
  cases h with
  | opening => exact ⟨_, rfl⟩
  | movement => exact ⟨_, rfl⟩

theorem draft (h : command.Posts settings readings b p) {d : Draft} (hd : d ∈ p.drafts) :
    command.transaction? = some d.transaction ∧ d.account ∈ command.accounts := by
  cases h with
  | opening =>
    simp only [Posting.opening, List.mem_cons, List.not_mem_nil, or_false] at hd
    rcases hd with rfl | rfl <;> exact ⟨rfl, by simp [accounts, Request.draft]⟩
  | movement =>
    simp only [Posting.movement, List.mem_cons, List.not_mem_nil, or_false] at hd
    rcases hd with rfl | rfl <;> exact ⟨rfl, by simp [accounts, Request.draft]⟩

theorem exists_draft (h : command.Posts settings readings b p) (hid : id ∈ command.accounts) :
    ∃ d ∈ p.drafts, d.account = id := by
  cases h with
  | opening =>
    rw [accounts, List.mem_singleton] at hid
    exact ⟨_, List.mem_cons_self, hid.symm⟩
  | movement =>
    simp only [accounts, List.mem_cons, List.not_mem_nil, or_false] at hid
    rcases hid with rfl | rfl
    · exact ⟨_, List.mem_cons_self, rfl⟩
    · exact ⟨_, List.mem_cons_of_mem _ List.mem_cons_self, rfl⟩

theorem row_of_not_mem (h : command.Posts settings readings b p) (hid : id ∉ command.accounts) :
    (b.post p).row id = b.row id := by
  cases h with
  | opening =>
    rw [accounts, List.mem_singleton] at hid
    rw [Book.row_post_opening, if_neg (Ne.symm hid)]
  | movement _ _ hs hd hdebit hcredit =>
    simp only [accounts, List.mem_cons, List.not_mem_nil, or_false, not_or] at hid
    have hds := (Account.debit_id hdebit).trans (Book.row_id hs)
    have hcd := (Account.credit_id hcredit).trans (Book.row_id hd)
    rw [Book.row_post_movement _ _ _ _ hds hcd, if_neg (Ne.symm hid.2), if_neg (Ne.symm hid.1)]

theorem stream_of_not_mem (h : command.Posts settings readings b p)
    (hid : id ∉ command.accounts) : (b.post p).stream id = b.stream id := by
  rw [Book.stream_post, List.append_right_eq_self, List.filter_eq_nil_iff]
  intro d hd hacc
  rw [decide_eq_true_eq] at hacc
  exact hid (hacc ▸ (h.draft hd).2)

end Command.Posts

namespace Book

variable {b : Book} {id : AccountId}

/-! ## Books made by postings -/

/-- A book that commands can make from nothing by posting one after the other. -/
inductive Reached : Book → Prop where
  | empty : Reached {}
  | post {b : Book} {settings : Settings} {command : Command} {readings : List Instant}
      {p : Posting} (h : Reached b) (hp : command.Posts settings readings b p) : Reached (b.post p)

/-- Each stream is numbered from 1 in the order of commits, and an account has a row if and only if
it has a stream. -/
structure Kept (b : Book) : Prop where
  numbers : ∀ id, (b.stream id).map (·.sequence.value) = List.range' 1 (b.stream id).length
  backed : ∀ id, b.row id = none ↔ b.stream id = []

theorem foldl_laterNumber {ds : List Draft}
    (h : ds.map (·.sequence.value) = List.range' 1 ds.length) :
    (ds.foldl laterNumber .initial).value = ds.length := by
  induction ds using List.reverseRecOn with
  | nil => rfl
  | append_singleton ds d ih =>
    simp only [List.map_append, List.length_append, List.length_singleton, List.range'_1_concat,
      List.map_cons, List.map_nil] at h
    obtain ⟨hds, hd⟩ := List.append_inj' h rfl
    have hlast := ih hds
    have hseq : d.sequence.value = 1 + ds.length := by simpa using hd
    rw [List.foldl_append, List.foldl_cons, List.foldl_nil, laterNumber, if_pos]
    · simp only [List.length_append, List.length_singleton]
      omega
    · rw [SequenceNumber.le_def]
      omega

theorem Kept.lastNumber_value (h : b.Kept) (id : AccountId) :
    (b.lastNumber id).value = (b.stream id).length :=
  foldl_laterNumber (h.numbers id)

theorem Kept.exists_first (h : b.Kept) (hne : b.stream id ≠ []) :
    ∃ d ∈ b.stream id, d.sequence = .first := by
  have hnum := h.numbers id
  cases hs : b.stream id with
  | nil => exact absurd hs hne
  | cons d rest =>
    rw [hs, List.map_cons, List.length_cons, List.range'_succ, List.cons.injEq] at hnum
    exact ⟨d, List.mem_cons_self, SequenceNumber.ext hnum.1⟩

theorem Kept.stream_ne_nil (h : b.Kept) {a : Account} (hrow : b.row id = some a) :
    b.stream id ≠ [] := by
  intro hs
  rw [(h.backed id).mpr hs] at hrow
  cases hrow

theorem numbers_concat {ds : List Draft} {d : Draft}
    (h : ds.map (·.sequence.value) = List.range' 1 ds.length)
    (hd : d.sequence.value = ds.length + 1) :
    (ds ++ [d]).map (·.sequence.value) = List.range' 1 (ds ++ [d]).length := by
  simp [h, hd, List.range'_1_concat, Nat.add_comm]

theorem kept_empty : ({} : Book).Kept := ⟨fun _ => by simp, fun _ => by simp⟩

theorem Kept.post_opening (h : b.Kept) (settings : Settings) (request : Request)
    (hstream : b.stream id = []) (initial : Amount) (now : Instant) :
    (b.post (.opening settings request id initial now)).Kept where
  numbers other := by
    rw [stream_post_opening]
    split
    · rename_i he
      subst he
      rw [hstream]
      rfl
    · exact h.numbers other
  backed other := by
    rw [stream_post_opening, row_post_opening]
    split
    · simp
    · exact h.backed other

theorem Kept.post_movement (h : b.Kept) (settings : Settings) (request : Request)
    {source destination : AccountId} (hne : source ≠ destination) (amount : Amount)
    {debited credited : Account} {n m : SequenceNumber}
    (hd : debited.id = source) (hc : credited.id = destination)
    (hn : (b.lastNumber source).next? = some n) (hm : (b.lastNumber destination).next? = some m) :
    (b.post (.movement settings request source destination amount debited credited n m)).Kept where
  numbers other := by
    rw [stream_post_movement b settings request hne]
    split
    · rename_i he
      subst he
      apply numbers_concat (h.numbers source)
      rw [← h.lastNumber_value source]
      exact SequenceNumber.next?_eq_some_iff.mp hn
    · split
      · rename_i he
        subst he
        apply numbers_concat (h.numbers destination)
        rw [← h.lastNumber_value destination]
        exact SequenceNumber.next?_eq_some_iff.mp hm
      · exact h.numbers other
  backed other := by
    rw [stream_post_movement b settings request hne, row_post_movement b settings request amount hd hc]
    by_cases hs : source = other
    · by_cases hdest : destination = other <;> simp [hs, hdest]
    · by_cases hdest : destination = other
      · simp [hs, hdest]
      · simp only [hs, hdest, if_false]
        exact h.backed other

theorem Kept.post {settings : Settings} {command : Command} {readings : List Instant} {p : Posting}
    (h : b.Kept) (hp : command.Posts settings readings b p) : (b.post p).Kept := by
  cases hp with
  | opening _ _ hstream => exact h.post_opening settings _ hstream _ _
  | movement _ hne hs hd hdebit hcredit hn hm =>
    have hds := (Account.debit_id hdebit).trans (row_id hs)
    have hcd := (Account.credit_id hcredit).trans (row_id hd)
    exact h.post_movement settings _ hne _ hds hcd hn hm

theorem Reached.kept (h : b.Reached) : b.Kept := by
  induction h with
  | empty => exact kept_empty
  | post _ hp ih => exact ih.post hp

end Book

/-! ## Books of stores -/

namespace Store

variable {s s' : Store} {id : AccountId}

theorem book_eq (hrows : s'.rows = s.rows) (hentries : s'.entries = s.entries) :
    s'.book = s.book := by
  rw [book, book, hrows, hentries]

theorem stream_book (s : Store) (id : AccountId) :
    s.book.stream id = (s.entries.filter fun e => e.account = id).map (·.toDraft) := by
  rw [Book.stream, book, List.filter_map]
  rfl

theorem pairwise_sequence (h : s.book.Kept) (id : AccountId) :
    (s.entries.filter fun e => e.account = id).Pairwise fun a b => a.sequence ≤ b.sequence := by
  have hnum := h.numbers id
  rw [stream_book, List.map_map] at hnum
  have hle : ((s.entries.filter fun e => e.account = id).map fun e => e.sequence.value).Pairwise
      (· ≤ ·) := by
    have heq : ((s.entries.filter fun e => e.account = id).map fun e => e.sequence.value) =
        List.range' 1 ((s.entries.filter fun e => e.account = id).map (·.toDraft)).length := hnum
    rw [heq]
    exact List.pairwise_le_range'
  exact (List.pairwise_map.mp hle).imp SequenceNumber.le_def.mpr

/-- The order of the numbers is that of the commits. -/
theorem entriesFor_eq_filter (h : s.book.Kept) (id : AccountId) :
    s.entriesFor id = s.entries.filter fun e => e.account = id :=
  List.mergeSort_of_pairwise ((pairwise_sequence h id).imp decide_eq_true)

theorem map_toDraft_entriesFor (h : s.book.Kept) (id : AccountId) :
    (s.entriesFor id).map (·.toDraft) = s.book.stream id := by
  rw [entriesFor_eq_filter h, stream_book]

end Store

end Bookkeeping
