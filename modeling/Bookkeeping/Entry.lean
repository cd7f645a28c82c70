import Bookkeeping.Event

/-! # Entries

An event becomes a draft when it is stamped with its transaction and its position, and an entry
when a store gives it a key.
-/
namespace Bookkeeping

structure Draft where
  transaction : TransactionId
  sequence : SequenceNumber
  account : AccountId
  aggregate : Aggregate
  kind : Event.Kind
  payload : Json
  version : SchemaVersion

/-- The position of an entry among all streams; no two entries of a store share it. -/
def Draft.key (d : Draft) : AccountId × SequenceNumber := (d.account, d.sequence)

def Draft.event (d : Draft) : Except StoreError Event :=
  Event.decode d.kind d.payload

/-- A stored event. The time of storing is known only where the store keeps it. -/
structure Entry extends Draft where
  id : EntryId
  storedAt : Option Time.Instant

def Draft.stored (d : Draft) (id : EntryId) (at? : Option Time.Instant) : Entry :=
  { d with id, storedAt := at? }

def Entry.key (e : Entry) : AccountId × SequenceNumber := e.toDraft.key

def Entry.event (e : Entry) : Except StoreError Event := e.toDraft.event

@[simp] theorem Draft.toDraft_stored (d : Draft) (id : EntryId) (at? : Option Time.Instant) :
    (d.stored id at?).toDraft = d := rfl

@[simp] theorem Draft.key_stored (d : Draft) (id : EntryId) (at? : Option Time.Instant) :
    (d.stored id at?).key = d.key := rfl

end Bookkeeping
