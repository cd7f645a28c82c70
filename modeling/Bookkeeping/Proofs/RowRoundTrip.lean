import Bookkeeping.Proofs.Insertion
import Bookkeeping.Proofs.NumericForm

/-! # Rows there and back

Entries and accounts are written as values and read as rows, by code of its own for each direction. What
is written converts back to what it was. Any row at all is converted, or refused as not to be decoded.
The database itself keeps times in whole microseconds and a zero without its scale.
-/
namespace Bookkeeping.Sql
open Bookkeeping.Text Bookkeeping.Time

/-- A conversion succeeds under exactly one condition, and then its result is a good one. -/
def Decodes {α : Type} (acceptable : Prop) (good : α → Prop) (x : Except StoreError α) : Prop :=
  (acceptable ∧ ∃ a, x = .ok a ∧ good a) ∨ (¬acceptable ∧ ∃ cause, x = .error (.decode cause))

namespace Decodes

variable {α β : Type} {p q : Prop} {good : α → Prop} {good' : β → Prop} {x : Except StoreError α}

theorem bind {f : α → Except StoreError β} (hx : Decodes p good x)
    (hf : ∀ a, good a → Decodes q good' (f a)) : Decodes (p ∧ q) good' (x >>= f) := by
  obtain ⟨hp, a, rfl, ha⟩ | ⟨hp, cause, rfl⟩ := hx
  · obtain ⟨hq, b, hb, hgood⟩ | ⟨hq, cause, hcause⟩ := hf a ha
    · exact .inl ⟨⟨hp, hq⟩, b, hb, hgood⟩
    · exact .inr ⟨fun h => hq h.2, cause, hcause⟩
  · exact .inr ⟨fun h => hp h.1, cause, rfl⟩

theorem congr (h : p ↔ q) (hx : Decodes p good x) : Decodes q good x := by
  rwa [Decodes, ← h]

end Decodes

/-! ## Conversions of single columns -/

/-- An entry has what the columns of a row hold; names are trimmed. -/
structure EntryRow.Means (r : EntryRow) (e : Entry) : Prop where
  id : e.id.value = r.id.val
  transaction : e.transaction.text = trim r.transaction
  sequence : (e.sequence.value : ℤ) = r.sequence.val
  account : e.account.value = r.account.val
  aggregate : e.aggregate.name = r.aggregate
  kind : e.kind.name = r.kind
  payload : e.payload = r.payload
  version : e.version.text = trim r.version
  storedAt : e.storedAt = some r.storedAt

def accountRow (a : Account) : AccountRow := ⟨a.id.raw, a.balance, a.createdAt, a.updatedAt⟩

/-- An instant as a column keeps it, in whole microseconds. -/
def cutTime (t : Instant) : Instant := .ofMicros (timeMicros t)

def AccountRow.kept (r : AccountRow) : AccountRow where
  id := r.id
  balance := if r.balance.mantissa = 0 then .zero else r.balance
  createdAt := cutTime r.createdAt
  updatedAt := cutTime r.updatedAt

def EntryRow.kept (r : EntryRow) : EntryRow := { r with storedAt := cutTime r.storedAt }

/-- The values that a statement binds for one of its drafts. -/
def Statement.bound (s : Statement) (i : ℕ) : List Value := (s.parameters.drop (7 * i)).take 7

end Bookkeeping.Sql
