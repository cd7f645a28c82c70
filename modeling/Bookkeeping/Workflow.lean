import Bookkeeping.EntryBatch
import Bookkeeping.Settings

/-! # Workflows

A workflow is a program that may end early, with an error or past a range. Here are the steps that
workflows share: calls whose errors end them, the check of the request's time, and the check that
its transaction is new.
-/
namespace Bookkeeping
open Bookkeeping.Time

structure Request where
  transaction : TransactionId
  time : Instant
  deriving DecidableEq

namespace Request
open Bookkeeping.Json

def fields : List Field :=
  [⟨TransactionId, "transaction_id", TransactionId.ofJson⟩, ⟨Instant, "timestamp", readInstant⟩]

def ofJson : Reader Request := fun v => do
  let (transaction, time, _) ← Record.read "RequestContext" fields v
  return { transaction, time }

def toJson (r : Request) : Json :=
  .object [("timestamp", .string r.time.text), ("transaction_id", r.transaction.toJson)]

end Request

/-- A program that may fail. -/
abbrev Workflow (α : Type) := ExceptT Failure Program α

namespace Workflow

variable {α : Type}

def program (w : Workflow α) : Program (Except Failure α) := w.run

def perform (p : Program α) : Workflow α := ExceptT.lift p

def ask (c : Call) : Workflow c.Reply := perform (Program.ask c)

def now : Workflow Instant := perform Program.now

def reject (e : LedgerError) : Workflow α := throw (.rejected e)

def ofResult (r : Except Failure α) : Workflow α := ExceptT.mk (.done r)

/-- Any store error ends the workflow as an internal error of a step. -/
def orInternal (step : Step) : Except StoreError α → Workflow α
  | .ok a => pure a
  | .error e => reject (.internal step e)

/-- As `orInternal`, except that a conflict means that the account exists already. -/
def orExists (account : AccountId) (step : Step) : Except StoreError α → Workflow α
  | .ok a => pure a
  | .error e => if e.isConflict then reject (.alreadyExists account) else reject (.internal step e)

/-- Nanoseconds from the earlier to the later of the time of a request and now. -/
def skew (request : Request) (now : Instant) : Int :=
  if request.time ≤ now then now.since request.time else request.time.since now

/-- The time of a request is no further from now than the threshold. A negative skew, which may come
of a leap second, is no distance at all. -/
def Fresh (settings : Settings) (request : Request) (now : Instant) : Prop :=
  0 ≤ skew request now ∧ skew request now ≤ settings.threshold.duration.nanos

instance (settings : Settings) (request : Request) (now : Instant) :
    Decidable (Fresh settings request now) :=
  inferInstanceAs (Decidable (_ ∧ _))

def checkFresh (settings : Settings) (request : Request) : Workflow Instant := do
  let now ← now
  if Fresh settings request now then return now
  else reject (.invalidRequestTime request.time now settings.threshold.duration)

/-- Rejects transactions of which entries are recorded. -/
def checkUnused (t : TransactionId) (step : Step) : Except StoreError (List Entry) → Workflow Unit
  | .ok [] => pure ()
  | .ok (_ :: _) => reject (.alreadyRecorded t)
  | .error e => if e.isNotFound then pure () else reject (.internal step e)

end Workflow

end Bookkeeping
