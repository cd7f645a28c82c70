import Bookkeeping.Clock
import Bookkeeping.Command
import Bookkeeping.Faults

/-! # Commands side by side

Jobs share a store and a clock. Each is run in turn until it has to wait for a timer or a lock; time
moves only when no job can go on, straight to the next timer. A job whose time is up is dropped
together with its unit of work.
-/
namespace Bookkeeping
open Bookkeeping.Time

structure World where
  backend : Backend
  clock : Clock

def World.dropUnit (w : World) (u : Option UnitId) : World :=
  match u with
  | none => w
  | some u => { w with backend := w.backend.onStore (·.close u) }

/-- A program stopped at a call, and the unit of work it has opened. -/
structure Suspended (α : Type) where
  program : Program α
  phase : Backend.Phase
  unit : Option UnitId

inductive Progress (α : Type) where
  | finished (a : α)
  | suspended (s : Suspended α)

/-- The unit of work that is open after a call: the one just opened, or as before. -/
def unitAfter (u : Option UnitId) : (c : Call) → c.Reply → Option UnitId
  | .openUnit, .ok v => some v
  | _, _ => u

/-- Runs a program as far as possible at a time. A finished program leaves no unit open. -/
def Program.advance {α : Type} (now : Duration) :
    Program α → Backend.Phase → Option UnitId → World → Progress α × World
  | .done a, _, u, w => (.finished a, w.dropUnit u)
  | .clock next, _, u, w =>
    let (t, moved) := w.clock.read
    (next t).advance now .fresh u { w with clock := moved }
  | .call c next, phase, u, w =>
    match w.backend.attempt now c phase with
    | .suspended phase backend =>
      (.suspended ⟨.call c next, phase, u⟩, { w with backend })
    | .replied reply backend =>
      (next reply).advance now .fresh (unitAfter u c reply) { w with backend }

/-- The result of a program that nothing holds up; a lock that would have to wait gives nothing. -/
def Program.finish? {α : Type} (p : Program α) (w : World) : Option α × World :=
  match p.advance ⟨0⟩ .fresh none w with
  | (.finished a, w) => (some a, w)
  | (.suspended s, w) => (none, w.dropUnit s.unit)

inductive JobState where
  | pending
  | running (s : Suspended (Except Failure Answer)) (deadline : Duration)
  | ended (outcome : Outcome)

structure Job where
  command : Command
  start : Duration
  state : JobState

namespace Job

def ofCommand (command : Command) (start : Duration) : Job := ⟨command, start, .pending⟩

def outcome? (j : Job) : Option Outcome :=
  match j.state with
  | .ended o => some o
  | _ => none

/-- Runs a job after its start. A job that has to wait past its deadline is dropped. -/
def go (settings : Settings) (now deadline : Duration)
    (s : Suspended (Except Failure Answer)) (j : Job) (w : World) : Job × World :=
  match s.program.advance now s.phase s.unit w with
  | (.finished r, w) => ({ j with state := .ended (.ofResult r) }, w)
  | (.suspended s, w) =>
    if deadline.nanos ≤ now.nanos then
      ({ j with
          state := .ended (.timedOut j.command.deadlineStep settings.timeout.duration) },
        w.dropUnit s.unit)
    else ({ j with state := .running s deadline }, w)

def advance (settings : Settings) (now : Duration) (j : Job) (w : World) : Job × World :=
  match j.state with
  | .ended _ => (j, w)
  | .running s deadline => j.go settings now deadline s w
  | .pending =>
    if j.start.nanos ≤ now.nanos then
      j.go settings now ⟨now.nanos + settings.timeout.duration.nanos⟩
        ⟨j.command.program settings, .fresh, none⟩ w
    else (j, w)

def timers (j : Job) : List Duration :=
  match j.state with
  | .ended _ => []
  | .pending => [j.start]
  | .running ⟨_, .asleep wake, _⟩ deadline => [wake, deadline]
  | .running _ deadline => [deadline]

def hasLock (b : Backend) (j : Job) : Bool :=
  match j.state with
  | .running ⟨.call (.lockAccount u id) _, .entered, _⟩ _ => id ∈ (b.store.unit u).held
  | _ => false

/-- A job that can go on: its lock has been handed over, or a timer is due. -/
def isReady (b : Backend) (now : Duration) (j : Job) : Bool :=
  j.hasLock b || j.timers.any fun t => t.nanos ≤ now.nanos

end Job

namespace Schedule

def pass (settings : Settings) (now : Duration) : List Job → World → List Job × World
  | [], w => ([], w)
  | j :: rest, w =>
    let (j, w) := j.advance settings now w
    let (rest, w) := pass settings now rest w
    (j :: rest, w)

def nextTimer (jobs : List Job) : Option Nat :=
  ((jobs.flatMap Job.timers).map Duration.nanos).min?

def endOfTime (settings : Settings) (jobs : List Job) : Duration :=
  ⟨((jobs.flatMap Job.timers).map Duration.nanos).foldl max 0 +
    settings.timeout.duration.nanos⟩

/-- Passes over the jobs while one is ready, else moves the time. Out of fuel, the time passes every
deadline, which ends all jobs. -/
def loop (settings : Settings) : Nat → Duration → List Job → World → List Job × World
  | 0, _, jobs, w =>
    let late := endOfTime settings jobs
    let (jobs, w) := pass settings late jobs w
    pass settings ⟨late.nanos + settings.timeout.duration.nanos⟩ jobs w
  | fuel + 1, now, jobs, w =>
    if jobs.any (·.isReady w.backend now) then
      let (jobs, w) := pass settings now jobs w
      loop settings fuel now jobs w
    else
      match nextTimer jobs with
      | none => (jobs, w)
      | some t => loop settings fuel ⟨t⟩ jobs w

/-- Each job waits at most for its start, two sleeps, two locks and its deadline. -/
def fuel (jobs : List Job) : Nat := 16 * (jobs.length + 1)

def run (settings : Settings) (jobs : List Job) (w : World) : List Job × World :=
  loop settings (fuel jobs) ⟨0⟩ jobs w

def outcomes (settings : Settings) (commands : List (Command × Duration)) (w : World) :
    List Outcome × World :=
  let (jobs, w) := run settings (commands.map fun (c, start) => .ofCommand c start) w
  (jobs.filterMap Job.outcome?, w)

def single (settings : Settings) (command : Command) (w : World) : Option Outcome × World :=
  let (outcomes, w) := outcomes settings [(command, ⟨0⟩)] w
  (outcomes.head?, w)

end Schedule

end Bookkeeping
