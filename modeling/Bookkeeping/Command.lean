import Bookkeeping.Workflow.Create
import Bookkeeping.Workflow.Lookup
import Bookkeeping.Workflow.Transfer

/-! # Commands

What callers ask of a ledger, and what they are told.
-/
namespace Bookkeeping
open Bookkeeping.Time

inductive Command where
  | create (request : Request) (id : AccountId) (initial : Amount)
  | transfer (request : Request) (source destination : AccountId) (amount : Amount)
  | get (id : AccountId)
  deriving DecidableEq

inductive Answer where
  | account (a : Account)
  | transferred
  deriving DecidableEq

inductive Outcome where
  | answered (a : Answer)
  | failed (why : Failure)
  | timedOut (step : Step) (after : Duration)
  deriving DecidableEq

namespace Command

def workflow (settings : Settings) : Command → Workflow Answer
  | .create request id initial => .account <$> Workflow.create settings request id initial
  | .transfer request source destination amount =>
    (fun _ => .transferred) <$> Workflow.transfer settings request source destination amount
  | .get id => .account <$> Workflow.lookup id

def program (settings : Settings) (c : Command) : Program (Except Failure Answer) :=
  (c.workflow settings).program

/-- What is said to have been going on when a deadline passes. -/
def deadlineStep : Command → Step
  | .create .. => .creatingAccount
  | .transfer .. => .transferring
  | .get _ => .lookingUp

end Command

namespace Outcome

def ofResult : Except Failure Answer → Outcome
  | .ok a => .answered a
  | .error why => .failed why

/-- A missed deadline counts as an internal error; a value past its range is no error. -/
def result : Outcome → Except Failure Answer
  | .answered a => .ok a
  | .failed why => .error why
  | .timedOut step after => .error (.rejected (.internal step (.timeout after)))

end Outcome

end Bookkeeping
