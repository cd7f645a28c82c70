import Bookkeeping.Clock
import Bookkeeping.Log
import Bookkeeping.Program
import Bookkeeping.Sql.Row

/-! # The store over SQL

Each call becomes at most one statement, and the reply of the database becomes the reply of the
call. The database is a list of replies; it is asked in the order of the statements.
-/
namespace Bookkeeping.Sql
open Bookkeeping.Time

inductive StatementError where
  | reported (code message : String)
  | noRow
  | lost (message : String)
  deriving DecidableEq, Repr

/-- A reply of the database; some are meant for a rollback alone. -/
structure Reply where
  result : Except StatementError (List Row)
  forRollback : Bool := false

/-- The database as seen by the store: the replies to come, what was sent, what was noted. -/
structure Connection where
  replies : List Reply := []
  sent : List Statement := []
  log : List LogLine := []
  units : List UnitId := []
  opened : Nat := 0
  /-- Units of work that ended without commit or rollback and are still to be rolled back. -/
  dropped : Nat := 0

abbrev Talk := StateM Connection

def uniqueViolation : String := "23505"

/-- Sends a statement and takes the next reply; with none left it succeeds without rows. -/
def send (s : Statement) : Talk (Except StatementError (List Row)) := do
  let x ← get
  match x.replies with
  | [] =>
    set { x with sent := x.sent ++ [s] }
    return .ok []
  | r :: rest =>
    set { x with sent := x.sent ++ [s], replies := rest }
    return r.result

/-- Sends a rollback, which takes only a reply that is meant for it. -/
def sendRollback : Talk (Except StatementError (List Row)) := do
  let x ← get
  match x.replies with
  | r :: rest =>
    if r.forRollback then
      set { x with sent := x.sent ++ [Statement.rollback], replies := rest }
      return r.result
    else
      set { x with sent := x.sent ++ [Statement.rollback] }
      return .ok []
  | [] =>
    set { x with sent := x.sent ++ [Statement.rollback] }
    return .ok []

def note (l : LogLine) : Talk Unit := modify fun x => { x with log := x.log ++ [l] }

def failed (op : Operation) (cause : FailureCause) : Talk StoreError := do
  note ⟨.error, "[postgres.database_error] database operation failed",
    [("error", cause.message), ("operation", op.name)]⟩
  return .failure op cause

/-- The store error for a statement without result: a broken uniqueness rule is a conflict. -/
def storeError (op : Operation) : StatementError → Talk StoreError
  | .reported code message =>
    if code = uniqueViolation then do
      note ⟨.warn, "[postgres.unique_violation] write rejected by unique constraint",
        [("error", message), ("operation", op.name)]⟩
      return .conflict op
    else failed op (.database message)
  | .noRow => return .notFound "row"
  | .lost message => failed op (.reported message)

def done (op : Operation) (r : Except StatementError (List Row)) : Talk (Except StoreError Unit) := do
  match r with
  | .ok _ => return .ok ()
  | .error e => return .error (← storeError op e)

/-- Sends a statement and reads those rows of its reply that are wanted. -/
def fetch {α : Type} (op : Operation) (s : Statement) (wanted : List Row → List Row)
    (read : Row → Except FailureCause α) : Talk (Except StoreError (List α)) := do
  match ← send s with
  | .error e => return .error (← storeError op e)
  | .ok rows =>
    match (wanted rows).mapM read with
    | .ok rows => return .ok rows
    | .error cause => return .error (← failed op cause)

def fetchAll {α β : Type} (op : Operation) (s : Statement) (read : Row → Except FailureCause α)
    (convert : α → Except StoreError β) : Talk (Except StoreError (List β)) := do
  return (← fetch op s id read).bind (·.mapM convert)

def fetchFirst {α β : Type} (what : String) (op : Operation) (s : Statement)
    (read : Row → Except FailureCause α) (convert : α → Except StoreError β) :
    Talk (Except StoreError β) := do
  return (← fetch op s (·.take 1) read).bind fun rows =>
    match rows with
    | [] => .error (.notFound what)
    | a :: _ => convert a

def openUnit : Talk (Except StoreError UnitId) := do
  match ← send .openUnit with
  | .error e => return .error (← storeError .openUnit e)
  | .ok _ =>
    let x ← get
    let u : UnitId := ⟨x.opened⟩
    set { x with units := x.units ++ [u], opened := x.opened + 1 }
    return .ok u

def dropUnit (u : UnitId) : Talk Unit :=
  modify fun x =>
    if u ∈ x.units then { x with units := x.units.erase u, dropped := x.dropped + 1 } else x

/-- Ends a unit of work; if that fails, the unit is dropped. -/
def endUnit (op : Operation) (u : UnitId) (r : Except StatementError (List Row)) :
    Talk (Except StoreError Unit) := do
  match ← done op r with
  | .ok _ =>
    modify fun x => { x with units := x.units.erase u }
    return .ok ()
  | .error e =>
    dropUnit u
    return .error e

/-- Appends drafts: nothing is sent for none, or if some number does not fit its column. -/
def append (drafts : List Draft) : Talk (Except StoreError Unit) := do
  if drafts.isEmpty then return .ok ()
  match Statement.append drafts with
  | .error e => return .error e
  | .ok s => done .append (← send s)

def reply : (c : Call) → Talk c.Reply
  | .findAccount id =>
    fetchFirst "account" .findAccount (.findAccount id) AccountRow.read AccountRow.account
  | .lockAccount _ id =>
    fetchFirst "account" .lockAccount (.lockAccount id) AccountRow.read AccountRow.account
  | .findByTransaction t | .findByTransactionIn _ t =>
    fetchAll .findByTransaction (.findByTransaction t) EntryRow.read EntryRow.entry
  | .findLast id | .findLastIn _ id =>
    fetchFirst "event" .findLast (.findLast id) EntryRow.read EntryRow.entry
  | .openUnit => openUnit
  | .upsertAccount _ a => do done .upsertAccount (← send (.upsertAccount a))
  | .append _ drafts => append drafts
  | .commit u => do endUnit .commit u (← send .commit)
  | .rollback u => do endUnit .rollback u (← sendRollback)

def finishStep : Talk Unit :=
  modify fun x =>
    { x with sent := x.sent ++ List.replicate x.dropped .rollback, dropped := 0 }

/-- Drops the units of work that were opened since a given number of them. -/
def dropSince (opened : Nat) : Talk Unit := do
  for u in (← get).units do
    if opened ≤ u.value then dropUnit u

def runProgram {α : Type} (now : Instant) (p : Program α) : Talk α := do
  let opened := (← get).opened
  let a ← p.answer reply (pure now)
  dropSince opened
  return a

def runCommand (settings : Settings) (now : Instant) (c : Command) : Talk Outcome := do
  let outcome := Outcome.ofResult (← runProgram now (c.program settings))
  for line in outcome.logLines c do note line
  return outcome

end Bookkeeping.Sql
