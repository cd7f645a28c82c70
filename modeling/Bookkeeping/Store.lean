import Bookkeeping.Call

/-! # The store

Rows and entries that are committed, and the units of work that are open. What a unit writes stays
with it until its commit adds all of it at once. A unit holds the locks of the rows it has locked
until it ends; other units wait for them in the order in which they came. No two entries share an
account and a number, and keys of entries are given out at the time of appending, so that some are
never used.
-/
namespace Bookkeeping

structure WorkUnit where
  rows : List Account := []
  entries : List Entry := []
  held : List AccountId := []

structure Store where
  rows : List Account := []
  /-- The committed entries in the order of their commits. -/
  entries : List Entry := []
  /-- The last key given to an entry. -/
  lastKey : Nat := 0
  units : List (UnitId × WorkUnit) := []
  /-- The units that wait for the lock of a row, first come first. -/
  waiting : List (UnitId × AccountId) := []
  opened : Nat := 0

def findRow (id : AccountId) (rows : List Account) : Option Account :=
  rows.find? fun a => a.id = id

def putRow (a : Account) (rows : List Account) : List Account :=
  a :: rows.filter fun b => b.id ≠ a.id

theorem findRow_putRow (id : AccountId) (a : Account) (rows : List Account) :
    findRow id (putRow a rows) = if a.id = id then some a else findRow id rows := by
  unfold findRow putRow
  by_cases h : a.id = id
  · simp [h]
  · simp only [List.find?_cons, h, decide_false, List.find?_filter, if_false]
    congr 1
    funext b
    by_cases hb : b.id = id
    · simp [hb, Ne.symm h]
    · simp [hb]

/-- Of two entries with the larger number, the later one. -/
def laterEntry (best : Option Entry) (e : Entry) : Option Entry :=
  match best with
  | none => some e
  | some b => if b.sequence ≤ e.sequence then some e else some b

/-- The entry of an account with the largest number. -/
def lastOf (id : AccountId) (entries : List Entry) : Option Entry :=
  (entries.filter fun e => e.account = id).foldl laterEntry none

def entriesOf (t : TransactionId) (entries : List Entry) : List Entry :=
  (entries.filter fun e => e.transaction = t).mergeSort fun a b => a.id.value ≤ b.id.value

def foundOr {α : Type} (what : String) : Option α → Except StoreError α
  | some a => .ok a
  | none => .error (.notFound what)

namespace Store

def empty : Store := {}

/-- The entries of an account in the order of their numbers. -/
def entriesFor (s : Store) (id : AccountId) : List Entry :=
  (s.entries.filter fun e => e.account = id).mergeSort fun a b => a.sequence ≤ b.sequence

/-- The state of a unit of work. A unit that is not open has done nothing. -/
def unit (s : Store) (u : UnitId) : WorkUnit := (s.units.lookup u).getD {}

def setUnit (s : Store) (u : UnitId) (w : WorkUnit) : Store :=
  { s with units := s.units.map fun (v, x) => if v = u then (v, w) else (v, x) }

def openUnit (s : Store) : UnitId × Store :=
  (⟨s.opened⟩, { s with units := s.units ++ [(⟨s.opened⟩, {})], opened := s.opened + 1 })

def Locked (s : Store) (id : AccountId) : Prop := ∃ p ∈ s.units, id ∈ p.2.held

instance (s : Store) (id : AccountId) : Decidable (s.Locked id) :=
  inferInstanceAs (Decidable (∃ p ∈ s.units, id ∈ p.2.held))

def giveLock (s : Store) (u : UnitId) (id : AccountId) : Store :=
  s.setUnit u { s.unit u with held := id :: (s.unit u).held }

/-- Gives a lock that has become free to the unit that waits longest for it. -/
def handOver (s : Store) (id : AccountId) : Store :=
  match s.waiting.find? (·.2 = id) with
  | none => s
  | some (u, _) => { s with waiting := s.waiting.erase (u, id) }.giveLock u id

def close (s : Store) (u : UnitId) : Store :=
  let rest := { s with
    units := s.units.filter (·.1 ≠ u)
    waiting := s.waiting.filter (·.1 ≠ u) }
  (s.unit u).held.foldl handOver rest

def stopWaiting (s : Store) (u : UnitId) : Store :=
  { s with waiting := s.waiting.filter (·.1 ≠ u) }

def Taken (s : Store) (key : AccountId × SequenceNumber) : Prop := ∃ e ∈ s.entries, e.key = key

instance (s : Store) (key : AccountId × SequenceNumber) : Decidable (s.Taken key) :=
  inferInstanceAs (Decidable (∃ e ∈ s.entries, e.key = key))

/-- Gives keys to drafts in turn, up to the first draft that `free` does not accept. The result is
the entries, or nothing if some draft is not accepted, and the last key given. -/
def stage (free : List Entry → Draft → Bool) :
    Nat → List Entry → List Draft → Option (List Entry) × Nat
  | key, staged, [] => (some staged, key)
  | key, staged, d :: rest =>
    if free staged d then
      stage free (key + 1) (staged ++ [d.stored ⟨(key + 1 : Nat)⟩ none]) rest
    else (none, key)

/-- No entry that is committed, written by the unit, or staged has the key of a draft. -/
def isFree (s : Store) (u : UnitId) (staged : List Entry) (d : Draft) : Bool :=
  !decide (s.Taken d.key) && ((s.unit u).entries ++ staged).all fun e => e.key ≠ d.key

def append (s : Store) (u : UnitId) (drafts : List Draft) : Except StoreError Unit × Store :=
  match stage (s.isFree u) s.lastKey [] drafts with
  | (some staged, key) =>
    let w := s.unit u
    (.ok (), { s with lastKey := key }.setUnit u { w with entries := w.entries ++ staged })
  | (none, key) => (.error (.conflict .append), { s with lastKey := key })

/-- The entries written by a unit have keys of their own, also among the committed ones. -/
def Committable (s : Store) (w : WorkUnit) : Prop :=
  (w.entries.map Entry.key).Nodup ∧ ∀ e ∈ w.entries, ¬s.Taken e.key

instance (s : Store) (w : WorkUnit) : Decidable (s.Committable w) :=
  inferInstanceAs (Decidable (_ ∧ _))

def merge (s : Store) (w : WorkUnit) : Store :=
  { s with rows := w.rows.foldr putRow s.rows, entries := s.entries ++ w.entries }

/-- Commits a unit of work. It ends in any case. -/
def commit (s : Store) (u : UnitId) : Except StoreError Unit × Store :=
  let w := s.unit u
  if s.Committable w then (.ok (), (s.merge w).close u)
  else (.error (.conflict .commit), s.close u)

def rowIn (s : Store) (u : UnitId) (id : AccountId) : Option Account :=
  (findRow id (s.unit u).rows).or (findRow id s.rows)

def entriesOfIn (s : Store) (u : UnitId) (t : TransactionId) : List Entry :=
  (entriesOf t s.entries ++ (s.unit u).entries.filter fun e => e.transaction = t).mergeSort
    fun a b => a.id.value ≤ b.id.value

/-- The last entry of an account as a unit of work sees it: of the last committed one and the last
one that it has written, the one with the larger number. -/
def lastIn (s : Store) (u : UnitId) (id : AccountId) : Option Entry :=
  ((lastOf id s.entries).toList ++ (lastOf id (s.unit u).entries).toList).foldl laterEntry none

inductive Response (c : Call) where
  | replied (reply : c.Reply) (store : Store)
  | waits (store : Store)

/-- Locks a row and reads it, if the lock is held already or free; else waits in the queue. -/
def lock (s : Store) (u : UnitId) (id : AccountId) : Response (.lockAccount u id) :=
  if id ∈ (s.unit u).held then .replied (foundOr "account" (s.rowIn u id)) s
  else if s.Locked id then
    .waits (if (u, id) ∈ s.waiting then s else { s with waiting := s.waiting ++ [(u, id)] })
  else .replied (foundOr "account" (s.rowIn u id)) (s.giveLock u id)

/-- Answers a call. Only a lock may have to wait; it is then asked for again. -/
def respond (s : Store) : (c : Call) → Response c
  | .findAccount id => .replied (foundOr "account" (findRow id s.rows)) s
  | .findByTransaction t => .replied (.ok (entriesOf t s.entries)) s
  | .findLast id => .replied (foundOr "event" (lastOf id s.entries)) s
  | .openUnit => .replied (.ok s.openUnit.1) s.openUnit.2
  | .lockAccount u id => s.lock u id
  | .upsertAccount u a =>
    let w := s.unit u
    .replied (.ok ()) (s.setUnit u { w with rows := putRow a w.rows })
  | .append u drafts => .replied (s.append u drafts).1 (s.append u drafts).2
  | .findByTransactionIn u t => .replied (.ok (s.entriesOfIn u t)) s
  | .findLastIn u id => .replied (foundOr "event" (s.lastIn u id)) s
  | .commit u => .replied (s.commit u).1 (s.commit u).2
  | .rollback u => .replied (.ok ()) (s.close u)

end Store

end Bookkeeping
