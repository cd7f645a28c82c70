import Bookkeeping.Session
import Bookkeeping.Sql.Pool

/-! # Sessions over SQL

As a session over the store in memory, with the statements of each action.
-/
namespace Bookkeeping.Sql
open Bookkeeping.Time

inductive Action where
  | basic (a : BasicAction)
  | ping
  | migrate

inductive Result where
  | basic (r : BasicResult)
  | setup (r : Except SetupError Unit)

structure Session where
  settings : Settings
  now : Instant
  connection : Connection := {}
  units : List (String × UnitId) := []

abbrev Act := StateM Session

def talk {α : Type} (t : Talk α) : Act α := do
  let s ← get
  let (a, connection) := t.run s.connection
  set { s with connection }
  return a

/-- Opens a unit of work under a name. An older one of that name is dropped after that. -/
def openNamed (name : String) : Act BasicResult := do
  let r ← talk openUnit
  if let .ok u := r then
    if let some old := (← get).units.lookup name then talk (dropUnit old)
    modify fun s => { s with units := setName name u s.units }
  return .reply .openUnit r

def endNamed (name : String) (u : UnitId) (ending : Ending) : Act BasicResult := do
  modify fun s => { s with units := eraseName name s.units }
  match ending with
  | .commit => return .reply (.commit u) (← talk (reply (.commit u)))
  | .rollback => return .reply (.rollback u) (← talk (reply (.rollback u)))
  | .drop =>
    talk (dropUnit u)
    return .reply (.rollback u) (.ok ())

def performBasic : BasicAction → Act BasicResult
  | .command c => do
    let s ← get
    return .outcome (← talk (runCommand s.settings s.now c))
  | .call c => do return .reply c (← talk (reply c))
  | .openUnit name => openNamed name
  | .endUnit name u ending => endNamed name u ending

def performAction : Action → Act Result
  | .basic a => do return .basic (← performBasic a)
  | .ping => do return .setup (← talk ping)
  | .migrate => do return .setup (← talk migrate)

/-- Performs an action against the replies of the database. Gives what was sent and noted. -/
def Session.perform (s : Session) (replies : List Reply) (a : Action) :
    Result × List Statement × List LogLine × Session :=
  let act : Act Result := do
    let r ← performAction a
    talk finishStep
    return r
  let start := { s with connection := { s.connection with replies, sent := [], log := [] } }
  let (r, s) := act.run start
  (r, s.connection.sent, s.connection.log, s)

end Bookkeeping.Sql
