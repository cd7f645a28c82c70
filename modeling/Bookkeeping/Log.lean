import Bookkeeping.Command

/-! # Log lines

What a ledger notes about the outcomes of its commands. Lookups are noted only when they miss their
deadline, and computations past a range not at all.
-/
namespace Bookkeeping

inductive Level where
  | info
  | warn
  | error
  deriving DecidableEq, Repr

def Level.name : Level → String
  | .info => "INFO"
  | .warn => "WARN"
  | .error => "ERROR"

structure LogLine where
  level : Level
  message : String
  fields : List (String × String) := []
  deriving DecidableEq, Repr

namespace LogLine

def toJson (l : LogLine) : Json :=
  .ofMembers (("level", .string l.level.name) :: ("message", .string l.message) ::
    l.fields.map fun (name, value) => (name, .string value))

def deadlineMissed (step : Step) (after : Time.Duration) : LogLine :=
  ⟨.error, "[ledger] Deadline exceeded, unit of work dropped",
    [("timeout", after.text), ("context", step.description)]⟩

/-- The line about an error of a command: internal ones are failures, others rejections. -/
def ofError (scope : String) (e : LedgerError) : LogLine :=
  if e.kind = .internal then
    ⟨.error, scope ++ " Failed, nothing committed", [("error", e.message)]⟩
  else ⟨.warn, scope ++ " Rejected", [("error", e.message)]⟩

end LogLine

namespace Command

/-- Where the lines of a command come from, and what its success says; lookups have none. -/
def scope? : Command → Option (String × String)
  | .create .. => some ("[ledger.create_account]", " Account opened")
  | .transfer .. => some ("[ledger.transfer]", " Transfer committed")
  | .get _ => none

end Command

namespace Outcome

def deadlineLines : Outcome → List LogLine
  | .timedOut step after => [.deadlineMissed step after]
  | _ => []

def resultLines (o : Outcome) (c : Command) : List LogLine :=
  match c.scope?, o.result with
  | some (scope, success), .ok _ => [⟨.info, scope ++ success, []⟩]
  | some (scope, _), .error (.rejected e) => [.ofError scope e]
  | _, _ => []

def logLines (o : Outcome) (c : Command) : List LogLine := o.deadlineLines ++ o.resultLines c

end Outcome

end Bookkeeping
