import Bookkeeping.Entry

/-! # Audit lines

One line for each entry of an account, flat and readable.
-/
namespace Bookkeeping
open Bookkeeping.Json

/-- Which way money moved for the account. -/
inductive Direction where
  | opened
  | incoming
  | outgoing
  deriving DecidableEq, Repr

def Direction.name : Direction → String
  | .opened => "opened"
  | .incoming => "in"
  | .outgoing => "out"

/-- An entry for people to read. -/
structure AuditLine where
  account : AccountId
  sequence : SequenceNumber
  kind : Event.Kind
  direction : Direction
  amount : Amount
  counterparty : Option String
  transaction : TransactionId
  deriving DecidableEq

namespace AuditLine

def accountName (id : AccountId) : String := "account " ++ id.text

/-- Direction, amount and counterparty of an event. -/
def movement : Event → Direction × Amount × Option String
  | .opened a => (.opened, a, none)
  | .deposited source a => (.incoming, a, some source)
  | .debited destination a => (.outgoing, a, some (accountName destination))
  | .credited source a => (.incoming, a, some (accountName source))

def ofDraft (d : Draft) : Except StoreError AuditLine := do
  let (direction, amount, counterparty) := movement (← d.event)
  return { account := d.account, sequence := d.sequence, kind := d.kind, direction, amount
           counterparty, transaction := d.transaction }

/-- The lines of stamped events in their order; the first that cannot be read ends it. -/
def ofDrafts (ds : List Draft) : Except StoreError (List AuditLine) := ds.mapM ofDraft

def ofEntries (es : List Entry) : Except StoreError (List AuditLine) := ofDrafts (es.map (·.toDraft))

def counterpartyText (l : AuditLine) : String :=
  match l.direction, l.counterparty with
  | .incoming, some other => " from " ++ other
  | .outgoing, some other => " to " ++ other
  | _, _ => ""

def text (l : AuditLine) : String :=
  "account " ++ l.account.text ++ " #" ++ l.sequence.text ++ " " ++ l.kind.name ++ " " ++
    l.amount.text ++ l.counterpartyText ++ " [" ++ l.transaction.text ++ "]"

def toJson (l : AuditLine) : Json :=
  .object [("account_id", l.account.toJson), ("amount", l.amount.toJson),
    ("counterparty", .ofOption .string l.counterparty), ("direction", .string l.direction.name),
    ("kind", l.kind.toJson), ("sequence_number", l.sequence.toJson),
    ("transaction_id", l.transaction.toJson)]

end AuditLine

end Bookkeeping
