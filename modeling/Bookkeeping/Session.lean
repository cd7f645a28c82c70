import Bookkeeping.AuditLine
import Bookkeeping.Log
import Bookkeeping.Schedule

/-! # Sessions

A session is a ledger over one store with units of work and batches that are kept under names from
one action to the next. Each action has a result and leaves lines in the log.
-/
namespace Bookkeeping
open Bookkeeping.Time

inductive Ending where
  | commit
  | rollback
  | drop
  deriving DecidableEq, Repr

inductive BasicAction where
  | command (c : Command)
  | call (c : Call)
  | openUnit (name : String)
  | endUnit (name : String) (u : UnitId) (ending : Ending)

inductive BasicResult where
  | outcome (o : Outcome)
  | reply (c : Call) (r : c.Reply)
  | blocked

inductive Action where
  | basic (a : BasicAction)
  | concurrent (commands : List (Command × Duration))
  | reopen (settings : Settings) (clock : Clock)
  | entriesFor (id : AccountId)
  | audit (id : AccountId)
  | newBatch (name : String) (b : EntryBatch)
  | loadBatch (name : String) (u : Option UnitId) (id : AccountId) (t : TransactionId)
    (version : SchemaVersion)
  | record (name : String) (b : EntryBatch) (e : Event)
  | place (name : String) (b : EntryBatch) (u : UnitId)
  | showBatch (b : EntryBatch)
  | failOn (op : Operation)
  | delayLocks (delay : Duration)
  | inject (i : Injection)
  | heal

inductive Result where
  | basic (r : BasicResult)
  | outcomes (os : List Outcome)
  | settings (s : Settings)
  | entries (es : List Entry)
  | lines (ls : Except StoreError (List AuditLine))
  | batch (placed : Option Nat) (b : EntryBatch)
  | failed (why : Failure)
  | storeFailed (e : StoreError)
  | done

/-- Sets the value of a name in place of its older one. -/
def setName {α : Type} (name : String) (a : α) (names : List (String × α)) :
    List (String × α) :=
  (name, a) :: names.filter (·.1 ≠ name)

def eraseName {α : Type} (name : String) (names : List (String × α)) : List (String × α) :=
  names.filter (·.1 ≠ name)

/-- Makes a call by itself: it sleeps as long as it has to, but does not wait for a lock. -/
def Backend.settle (b : Backend) (c : Call) : Option c.Reply × Backend :=
  let giveUp (b : Backend) : Backend :=
    match c.unit? with
    | some u => b.onStore (·.stopWaiting u)
    | none => b
  match b.attempt ⟨0⟩ c .fresh with
  | .replied r b => (some r, b)
  | .suspended (.asleep wake) b =>
    match b.attempt wake c (.asleep wake) with
    | .replied r b => (some r, b)
    | .suspended _ b => (none, giveUp b)
  | .suspended _ b => (none, giveUp b)

/-- A ledger over a store, with named units of work and batches. -/
structure Session where
  settings : Settings
  world : World
  units : List (String × UnitId) := []
  batches : List (String × EntryBatch) := []

namespace Session

def store (s : Session) : Store := s.world.backend.store

def onFaults (s : Session) (f : Faults → Faults) : Session :=
  { s with world.backend.faults := f s.world.backend.faults }

def call (s : Session) (c : Call) : Option c.Reply × Session :=
  let (r, backend) := s.world.backend.settle c
  (r, { s with world.backend := backend })

def runProgram {α : Type} (s : Session) (p : Program α) : Option α × Session :=
  let (a, world) := p.finish? s.world
  (a, { s with world })

def dropUnit (s : Session) (u : UnitId) : Session :=
  { s with world := s.world.dropUnit (some u) }

def callResult (c : Call) : Option c.Reply → BasicResult
  | some r => .reply c r
  | none => .blocked

/-- Opens a unit of work under a name. An older one of that name is dropped after that. -/
def openUnit (s : Session) (name : String) : BasicResult × Session :=
  match s.call .openUnit with
  | (some (.ok u), s) =>
    let s := match s.units.lookup name with
      | some old => s.dropUnit old
      | none => s
    (.reply .openUnit (.ok u), { s with units := setName name u s.units })
  | (r, s) => (callResult .openUnit r, s)

/-- Ends a unit of work; its name is gone afterwards. -/
def endUnit (s : Session) (name : String) (u : UnitId) (ending : Ending) :
    BasicResult × Session :=
  let s := { s with units := eraseName name s.units }
  match ending with
  | .commit =>
    let (r, s) := s.call (.commit u)
    (callResult (.commit u) r, s)
  | .rollback =>
    let (r, s) := s.call (.rollback u)
    (callResult (.rollback u) r, s)
  | .drop => (.reply (.rollback u) (.ok ()), s.dropUnit u)

def runCommand (s : Session) (c : Command) : BasicResult × List LogLine × Session :=
  match Schedule.single s.settings c s.world with
  | (some o, world) => (.outcome o, o.logLines c, { s with world })
  | (none, world) => (.blocked, [], { s with world })

def performBasic (s : Session) : BasicAction → BasicResult × List LogLine × Session
  | .command c => s.runCommand c
  | .call c =>
    let (r, s) := s.call c
    (callResult c r, [], s)
  | .openUnit name =>
    let (r, s) := s.openUnit name
    (r, [], s)
  | .endUnit name u ending =>
    let (r, s) := s.endUnit name u ending
    (r, [], s)

def setBatch (s : Session) (name : String) (b : EntryBatch) : Session :=
  { s with batches := setName name b s.batches }

def loadBatch (s : Session) (name : String) (u : Option UnitId) (id : AccountId)
    (t : TransactionId) (version : SchemaVersion) : Result × Session :=
  let p : Program (Except StoreError EntryBatch) :=
    match u with
    | none => EntryBatch.load id t version
    | some u => EntryBatch.loadIn u id t version
  match s.runProgram p with
  | (some (.ok b), s) => (.batch none b, s.setBatch name b)
  | (some (.error e), s) => (.storeFailed e, s)
  | (none, s) => (.basic .blocked, s)

def place (s : Session) (name : String) (b : EntryBatch) (u : UnitId) : Result × Session :=
  match s.runProgram ((EntryBatch.place u).on b) with
  | (some (.ok placed, b), s) => (.batch (some placed) b, s.setBatch name b)
  | (some (.error e, b), s) => (.storeFailed e, s.setBatch name b)
  | (none, s) => (.basic .blocked, s)

def perform (s : Session) : Action → Result × List LogLine × Session
  | .basic a =>
    let (r, log, s) := s.performBasic a
    (.basic r, log, s)
  | .concurrent commands =>
    let (os, world) := Schedule.outcomes s.settings commands s.world
    (.outcomes os, [], { s with world })
  | .reopen settings clock =>
    (.settings settings, [], { s with settings, world.clock := clock })
  | .entriesFor id => (.entries (s.store.entriesFor id), [], s)
  | .audit id => (.lines (AuditLine.ofEntries (s.store.entriesFor id)), [], s)
  | .newBatch name b => (.batch none b, [], s.setBatch name b)
  | .loadBatch name u id t version =>
    let (r, s) := s.loadBatch name u id t version
    (r, [], s)
  | .record name b e =>
    match (EntryBatch.record e).on b with
    | (.ok (), b) => (.batch none b, [], s.setBatch name b)
    | (.error why, b) => (.failed why, [], s.setBatch name b)
  | .place name b u =>
    let (r, s) := s.place name b u
    (r, [], s)
  | .showBatch b => (.batch none b, [], s)
  | .failOn op => (.done, [], s.onFaults fun f => { f with failing := op :: f.failing })
  | .delayLocks delay => (.done, [], s.onFaults fun f => { f with lockDelay := some delay })
  | .inject i => (.done, [], s.onFaults fun f => { f with injections := f.injections ++ [i] })
  | .heal => (.done, [], s.onFaults fun _ => {})

end Session

end Bookkeeping
