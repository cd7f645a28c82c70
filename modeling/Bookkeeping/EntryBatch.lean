import Bookkeeping.Method
import Bookkeeping.Program

/-! # Batches of entries

A batch collects the events that one operation adds to one account. Each event gets the next number
of the account's stream; the drafts go to the store together.
-/
namespace Bookkeeping

structure EntryBatch where
  account : AccountId
  transaction : TransactionId
  version : SchemaVersion
  /-- The number of the last event recorded. -/
  sequence : SequenceNumber
  /-- The drafts that have not been placed. -/
  pending : List Draft

namespace EntryBatch

def startingAt (account : AccountId) (transaction : TransactionId) (version : SchemaVersion)
    (sequence : SequenceNumber) : EntryBatch :=
  ⟨account, transaction, version, sequence, []⟩

def stamp (b : EntryBatch) (e : Event) (sequence : SequenceNumber) : Draft where
  transaction := b.transaction
  sequence
  account := b.account
  aggregate := .account
  kind := e.kind
  payload := e.payload
  version := b.version

def record (e : Event) : Method EntryBatch Failure Id Unit := do
  match (← get).sequence.next? with
  | none => throw (.overflow .sequence)
  | some sequence =>
    modify fun b => { b with pending := b.pending ++ [b.stamp e sequence] }
    modify fun b => { b with sequence }

theorem on_record (b : EntryBatch) (e : Event) : (record e).on b =
    match b.sequence.next? with
    | some sequence => (.ok (), { b with sequence, pending := b.pending ++ [b.stamp e sequence] })
    | none => (.error (.overflow .sequence), b) := by
  cases hs : b.sequence.next? <;> simp [record, hs] <;> rfl

theorem update_record (b : EntryBatch) (e : Event) : (record e).update b =
    match b.sequence.next? with
    | some sequence => .ok { b with sequence, pending := b.pending ++ [b.stamp e sequence] }
    | none => .error (.overflow .sequence) := by
  rw [Method.update, on_record]
  cases b.sequence.next? <;> rfl

/-- Places the pending drafts and counts them. An empty batch makes no call. -/
def place (u : UnitId) : Method EntryBatch StoreError Program Nat := do
  if (← get).pending.isEmpty then return 0
  match ← Program.ask (.append u (← get).pending) with
  | .error e => throw e
  | .ok _ =>
    let placed := (← get).pending.length
    modify fun b => { b with pending := [] }
    return placed

theorem on_place_nil {b : EntryBatch} (u : UnitId) (h : b.pending = []) :
    (place u).on b = .done (.ok 0, b) := by
  simp [place, h]

theorem on_place {b : EntryBatch} (u : UnitId) (h : b.pending ≠ []) :
    (place u).on b = .call (.append u b.pending) fun
      | .ok _ => .done (.ok b.pending.length, { b with pending := [] })
      | .error e => .done (.error e, b) := by
  simp only [place, Method.on_bind, Method.on_get, pure_bind, List.isEmpty_iff, h, if_false,
    Method.on_lift, Program.ask, Program.call_bind, Program.done_bind]
  congr 1
  funext r
  cases r <;> simp [Except.map]

/-- The number of the last entry; it is the initial one when there is none. -/
def lastSequence : Except StoreError Entry → Except StoreError SequenceNumber
  | .ok e => .ok e.sequence
  | .error e => if e.isNotFound then .ok .initial else .error e

def load (account : AccountId) (transaction : TransactionId) (version : SchemaVersion) :
    Program (Except StoreError EntryBatch) := do
  let last ← Program.ask (.findLast account)
  return (lastSequence last).map (startingAt account transaction version)

def loadIn (u : UnitId) (account : AccountId) (transaction : TransactionId)
    (version : SchemaVersion) : Program (Except StoreError EntryBatch) := do
  let last ← Program.ask (.findLastIn u account)
  return (lastSequence last).map (startingAt account transaction version)

end EntryBatch

end Bookkeeping
