import Bookkeeping.Schedule

/-! # Commands in any order

A system is a store with its faults and any number of tasks that run commands over it. One action is
one step of one task, the end of a task that misses its deadline or is cancelled, the start of a new
task, or a change of the faults. A task makes at most one call in a step, so that a run, which is any
list of actions, is any interleaving of the calls. What a task was told and the order of the commits
are kept as history; no step depends on them.
-/
namespace Bookkeeping
open Bookkeeping.Time

/-- What a program is told while it runs. -/
inductive Observation where
  | replied (c : Call) (r : c.Reply)
  | read (t : Instant)

def Observation.isCommit : Observation → Bool
  | .replied (.commit _) (.ok _) => true
  | _ => false

def Backend.dropUnit (b : Backend) : Option UnitId → Backend
  | none => b
  | some u => b.onStore (·.close u)

/-- A program that was just told something. One that is done leaves no unit of work open. -/
def Program.settle {α : Type} (u : Option UnitId) (b : Backend) : Program α → Progress α × Backend
  | .done a => (.finished a, b.dropUnit u)
  | p => (.suspended ⟨p, .fresh, u⟩, b)

structure Move (α : Type) where
  told : Option Observation
  progress : Progress α
  backend : Backend

def Move.telling {α : Type} (o : Observation) (u : Option UnitId) (b : Backend) (p : Program α) :
    Move α :=
  ⟨some o, (p.settle u b).1, (p.settle u b).2⟩

/-- One step of a program at a time: it attempts its next call or reads the clock. -/
def Suspended.step {α : Type} (now : Duration) (reading : Instant) (s : Suspended α) (b : Backend) :
    Move α :=
  match s.program with
  | .done a => ⟨none, .finished a, b.dropUnit s.unit⟩
  | .clock next => .telling (.read reading) s.unit b (next reading)
  | .call c next =>
    match b.attempt now c s.phase with
    | .suspended phase b => ⟨none, .suspended ⟨.call c next, phase, s.unit⟩, b⟩
    | .replied r b => .telling (.replied c r) (unitAfter s.unit c r) b (next r)

/-- Where a task is; a cancelled one ends without an outcome. -/
inductive Status where
  | running (s : Suspended (Except Failure Answer))
  | ended (outcome : Option Outcome)

def Progress.status : Progress (Except Failure Answer) → Status
  | .finished r => .ended (some (.ofResult r))
  | .suspended s => .running s

/-- A command under way, with what it has been told so far. -/
structure Task where
  settings : Settings
  command : Command
  history : List Observation
  status : Status

namespace Task

def begin (settings : Settings) (command : Command) : Task :=
  ⟨settings, command, [], .running ⟨command.program settings, .fresh, none⟩⟩

def after (t : Task) (m : Move (Except Failure Answer)) : Task where
  settings := t.settings
  command := t.command
  history := t.history ++ m.told.toList
  status := m.progress.status

def outcome? (t : Task) : Option Outcome :=
  match t.status with
  | .running _ => none
  | .ended outcome => outcome

def running? (t : Task) : Option (Suspended (Except Failure Answer)) :=
  match t.status with
  | .running sus => some sus
  | .ended _ => none

theorem running?_eq_some_iff {t : Task} {sus : Suspended (Except Failure Answer)} :
    t.running? = some sus ↔ t.status = .running sus := by
  unfold running?
  cases t.status <;> simp

/-- The task returned a success. -/
def Succeeded (t : Task) : Prop := ∃ a, t.status = .ended (some (.answered a))

end Task

/-- A store with its faults, the tasks in the order of their starts, and the tasks whose commits
succeeded in the order of these. -/
structure System where
  backend : Backend := {}
  tasks : List Task := []
  commits : List Nat := []

inductive System.Action where
  | start (settings : Settings) (command : Command)
  /-- A task makes a step at a time; if it reads the clock, the reading is given. -/
  | advance (task : Nat) (now : Duration) (reading : Instant)
  | timeOut (task : Nat)
  /-- A task is dropped where it is, be it by its caller or by a panic. -/
  | cancel (task : Nat)
  | arm (faults : Faults)

namespace System

abbrev store (s : System) : Store := s.backend.store

def setTask (s : System) (i : Nat) (t : Task) : System := { s with tasks := s.tasks.set i t }

def stop (s : System) (i : Nat) (outcome : Task → Option Outcome) : System :=
  match s.tasks[i]? with
  | some t =>
    match t.status with
    | .running sus =>
      { s with backend := s.backend.dropUnit sus.unit }.setTask i
        { t with status := .ended (outcome t) }
    | .ended _ => s
  | none => s

def advance (s : System) (i : Nat) (now : Duration) (reading : Instant) : System :=
  match s.tasks[i]? with
  | some t =>
    match t.status with
    | .running sus =>
      let m := sus.step now reading s.backend
      { backend := m.backend
        tasks := s.tasks.set i (t.after m)
        commits := if m.told.any Observation.isCommit then s.commits ++ [i] else s.commits }
    | .ended _ => s
  | none => s

def missed (t : Task) : Option Outcome :=
  some (.timedOut t.command.deadlineStep t.settings.timeout.duration)

/-- Performs an action. An action of a task that is not running changes nothing. -/
def step (s : System) : Action → System
  | .start settings command => { s with tasks := s.tasks ++ [.begin settings command] }
  | .advance i now reading => s.advance i now reading
  | .timeOut i => s.stop i missed
  | .cancel i => s.stop i fun _ => none
  | .arm faults => { s with backend := { s.backend with faults } }

def run (s : System) (actions : List Action) : System := actions.foldl step s

@[simp] theorem run_nil (s : System) : s.run [] = s := rfl

@[simp] theorem run_concat (s : System) (actions : List Action) (a : Action) :
    s.run (actions ++ [a]) = (s.run actions).step a := by
  simp [run]

theorem run_append (s : System) (before after : List Action) :
    s.run (before ++ after) = (s.run before).run after := by
  simp [run]

def empty : System := {}

/-! ## Openings and transfers one step at a time -/

def txA : TransactionId := ⟨"tx-a", by simp [Text.Trimmed, Text.isBlank], by simp, by simp⟩

def txB : TransactionId := ⟨"tx-b", by simp [Text.Trimmed, Text.isBlank], by simp, by simp⟩

def txC : TransactionId := ⟨"tx-c", by simp [Text.Trimmed, Text.isBlank], by simp, by simp⟩

def idA : AccountId := ⟨1, by decide, by decide⟩

def idB : AccountId := ⟨2, by decide, by decide⟩

def tenth : Amount := ⟨⟨1, 1, by decide, by decide⟩, by decide⟩

def ten : Amount := ⟨⟨10, 0, by decide, Decimal.zero.scale_le⟩, by decide⟩

def most : Amount := ⟨⟨79228162514264337593543950335, 0, by decide, Decimal.zero.scale_le⟩, by decide⟩

def epoch : Instant := ⟨0, 0, by decide⟩

def opensWith (t : TransactionId) (id : AccountId) (initial : Amount) : Action :=
  .start .standard (.create ⟨t, ⟨0, 0, by decide⟩⟩ id initial)

def opens (t : TransactionId) (id : AccountId) : Action := opensWith t id ten

def transfers (t : TransactionId) (source destination : AccountId) (amount : Amount) : Action :=
  .start .standard (.transfer ⟨t, ⟨0, 0, by decide⟩⟩ source destination amount)

def turn (task : Nat) : Action := .advance task ⟨0⟩ ⟨0, 0, by decide⟩

def steps (task count : Nat) : List Action := List.replicate count (turn task)

end System

end Bookkeeping
