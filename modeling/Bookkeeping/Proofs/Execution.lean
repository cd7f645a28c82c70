import Bookkeeping.Proofs.Judgement
import Bookkeeping.Proofs.Lookups

/-! # Commands that run by themselves

What a command comes to by itself on a store without faults is what the schedule gives for it. It
does not get to see its deadline.
-/
namespace Bookkeeping
open Bookkeeping.Time

namespace Clock

def shows (c : Clock) : Nat → List Instant
  | 0 => []
  | n + 1 => c.next :: c.read.2.shows n

/-- A clock after a number of readings. -/
def after (c : Clock) : Nat → Clock
  | 0 => c
  | n + 1 => c.read.2.after n

def still : Clock := ⟨fun _ => .ofNanos 0⟩

theorem shows_of_prefix {c : Clock} {n : Nat} {readings : List Instant}
    (h : readings <+: c.shows n) : readings = c.shows readings.length := by
  induction n generalizing c readings with
  | zero =>
    cases List.prefix_nil.mp h
    rfl
  | succ n ih =>
    cases readings with
    | nil => rfl
    | cons t rest =>
      obtain ⟨rfl, hrest⟩ := List.cons_prefix_cons.mp h
      rw [List.length_cons, shows, ← ih hrest]

end Clock

namespace Program

variable {α : Type} {a : α} {s : Store} {u : Option UnitId} {c : Clock} {n : Nat} {solo : Solo}

/-- A program that never has to wait is run to its end at once. -/
theorem advance_eq {p : Program α} (now : Duration)
    (h : p.answer Solo.reply Solo.clock ⟨s, c.shows n, u⟩ = some (a, solo))
    (hempty : solo.readings = []) :
    p.advance now .fresh u ⟨⟨s, {}⟩, c⟩ = (.finished a, ⟨⟨solo.leave, {}⟩, c.after n⟩) := by
  induction p generalizing s u c n with
  | done b =>
    -- all readings are used up, so the clock has moved on by as many
    cases h
    cases n with
    | zero => cases u <;> rfl
    | succ n => cases hempty
  | call call next ih =>
    obtain ⟨r, store, hreply, hnext⟩ := answer_call_iff.mp h
    have hattempt : Backend.attempt ⟨s, {}⟩ now call .fresh = .replied r ⟨store, {}⟩ := by
      rw [Backend.attempt_plain rfl (by simp), Backend.enter_plain rfl, hreply]
    rw [advance]
    simp only [hattempt]
    exact ih r hnext
  | clock next ih =>
    obtain ⟨t, rest, hreadings, hnext⟩ := answer_clock_iff.mp h
    cases n with
    | zero => cases hreadings
    | succ n =>
      obtain ⟨rfl, rfl⟩ := List.cons.inj hreadings
      exact ih _ hnext

end Program

namespace Schedule

variable {settings : Settings} {command : Command} {s s' : Store} {c : Clock} {n : Nat} {o : Outcome}

theorem single_eq {w w' : World} {r : Except Failure Answer}
    (h : (command.program settings).advance ⟨0⟩ .fresh none w = (.finished r, w')) :
    single settings command w = (some (.ofResult r), w') := by
  have hpass : pass settings ⟨0⟩ [.ofCommand command ⟨0⟩] w =
      ([⟨command, ⟨0⟩, .ended (.ofResult r)⟩], w') := by
    simp only [pass, Job.ofCommand, Job.advance, Job.go, h, Nat.le_refl, if_true]
  have hready : [Job.ofCommand command ⟨0⟩].any (·.isReady w.backend ⟨0⟩) = true := rfl
  have hrun : run settings [.ofCommand command ⟨0⟩] w =
      ([⟨command, ⟨0⟩, .ended (.ofResult r)⟩], w') := by
    change loop settings (31 + 1) ⟨0⟩ _ w = _
    rw [loop, if_pos hready, hpass]
    rfl
  rw [single, outcomes, List.map_singleton, hrun]
  rfl

theorem single_of_play (h : Turn.play ⟨settings, command, c.shows n⟩ s = some (o, s')) :
    single settings command ⟨⟨s, {}⟩, c⟩ = (some o, ⟨⟨s', {}⟩, c.after n⟩) := by
  obtain ⟨r, solo, hcomes, hempty, rfl, rfl⟩ := Turn.play_eq_some_iff.mp h
  exact single_eq (Program.advance_eq ⟨0⟩ hcomes hempty)

end Schedule

/-- A command that has a store to itself, with its settings and its clock. -/
structure Visit where
  settings : Settings
  command : Command
  clock : Clock

namespace Visit

def judge (v : Visit) (b : Book) : Except Failure Posting :=
  v.command.judge v.settings v.clock.next v.clock.read.2.next b

def prompt (command : Command) : Visit := ⟨.standard, command, .still⟩

def opens (t : TransactionId) (id : AccountId) (initial : Amount) : Visit :=
  prompt (.create ⟨t, Clock.still.next⟩ id initial)

def moves (t : TransactionId) (source destination : AccountId) (amount : Amount) : Visit :=
  prompt (.transfer ⟨t, Clock.still.next⟩ source destination amount)

end Visit

namespace Store

def serve (s : Store) (v : Visit) : Option Outcome × Store :=
  let (o, w) := Schedule.single v.settings v.command ⟨⟨s, {}⟩, v.clock⟩
  (o, w.backend.store)

def serveAll (s : Store) : List Visit → List (Option Outcome) × Store
  | [] => ([], s)
  | v :: rest =>
    let (o, s) := s.serve v
    let (os, s) := s.serveAll rest
    (o :: os, s)

/-- No unit of work is open, and the book was made by postings. -/
structure Ready (s : Store) : Prop where
  quiet : s.Quiet
  reached : s.book.Reached

theorem ready_empty : Ready {} := ⟨⟨rfl, rfl⟩, .empty⟩

variable {s : Store}

theorem Ready.serve_eq (h : s.Ready) (v : Visit) :
    (s.serve v).1 = some (.ofResult ((v.judge s.book).map (·.answer))) ∧
      (s.serve v).2.Quiet ∧ (s.serve v).2.book = s.book.after (v.judge s.book) := by
  obtain ⟨readings, s', hprefix, hplay, hquiet, hbook⟩ := Turn.exists_play v.settings v.command
    v.clock.next v.clock.read.2.next h.quiet h.reached.kept
  have hreadings : readings = v.clock.shows readings.length := Clock.shows_of_prefix (n := 2) hprefix
  rw [hreadings] at hplay
  rw [serve, Schedule.single_of_play hplay]
  exact ⟨rfl, hquiet, hbook⟩

theorem Ready.serve (h : s.Ready) (v : Visit) : (s.serve v).2.Ready := by
  obtain ⟨-, hquiet, hbook⟩ := h.serve_eq v
  refine ⟨hquiet, ?_⟩
  rw [hbook]
  exact Command.reached_after h.reached v.settings v.command _ _

theorem Ready.serveAll (h : s.Ready) (vs : List Visit) : (s.serveAll vs).2.Ready := by
  induction vs generalizing s with
  | nil => exact h
  | cons v rest ih => exact ih (h.serve v)

end Store

end Bookkeeping
