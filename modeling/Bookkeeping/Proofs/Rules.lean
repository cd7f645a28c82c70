import Bookkeeping.Proofs.Orderly

/-! # Rules that programs obey

A rule says which calls a program may make after what it has been told. A program obeys a rule if it
does so along every run, whatever the replies are. If the programs of all commands obey a rule, then
so does every running task of a system, after its history.
-/
namespace Bookkeeping
open Bookkeeping.Time

/-- Which calls may be made after a history. -/
abbrev Rule := List Observation → Call → Prop

namespace Rule

variable {P P' : Rule} {h : List Observation}

/-- A program keeps its history, may be told anything, and may fail after any history. -/
abbrev contract (P : Rule) : Contract (List Observation) where
  tell h o := h ++ [o]
  onCall h c R := P h c ∧ ∀ r, R r
  onClock _ R := ∀ t, R t
  fails _ _ := True
  onCall_mono hRS h := ⟨h.1, fun r => hRS r (h.2 r)⟩
  onClock_mono hRS h := fun t => hRS t (h t)

theorem lenient : P.contract.Lenient h := fun _ => trivial

theorem open_contract (P : Rule) : P.contract.Open := ⟨fun h => h.2, fun h => h⟩

end Rule

variable {α : Type} {P P' : Rule} {Q : List Observation → α → Prop} {h : List Observation}

theorem Program.Obeys.weaken (hP : ∀ h c, P h c → P' h c) {p : Program α}
    (hp : p.Obeys P.contract Q h) : p.Obeys P'.contract Q h := by
  induction p generalizing h with
  | done a => exact hp
  | call c next ih => exact ⟨hP h c hp.1, fun r => ih r (hp.2 r)⟩
  | clock next ih => exact fun t => ih t (hp t)

theorem Workflow.Obeys.weaken (hP : ∀ h c, P h c → P' h c) {w : Workflow α}
    (hw : w.Obeys P.contract Q h) : w.Obeys P'.contract Q h :=
  Program.Obeys.weaken hP hw

/-! ## Steps of workflows that obey -/

namespace Workflow

/-- A call that is allowed is made, and the workflow goes on if it is answered with success. -/
theorem obeys_handled {c : Call} {handle : c.Reply → Workflow c.Value}
    {Q : List Observation → c.Value → Prop} (hp : Passes handle) (hc : P h c) (hQ : ∀ h a, Q h a) :
    Obeys P.contract Q (do handle (← ask c)) h := by
  rw [obeys_bind, obeys_ask]
  refine ⟨hc, ?_⟩
  intro r
  exact hp.obeys Rule.lenient fun a _ => hQ _ a

theorem obeys_unused {t : TransactionId} {step : Step} {Q : List Observation → Unit → Prop}
    (hc : P h (.findByTransaction t))
    (hQ : ∀ r, Q (h ++ [.replied (.findByTransaction t) r]) ()) :
    Obeys P.contract Q (do checkUnused t step (← ask (.findByTransaction t))) h := by
  rw [obeys_bind, obeys_ask]
  refine ⟨hc, ?_⟩
  intro r
  exact obeys_checkUnused Rule.lenient (hQ r)

end Workflow

/-! ## Tasks that obey -/

def Rule.Obeyed (P : Command → Rule) : Prop :=
  ∀ settings command, (Command.program settings command).Obeys (P command).contract (fun _ _ => True) []

/-- What a task that made a step has been told and is about to do follows from its program. -/
theorem Task.obeys_after {P : Rule} {t : Task} {sus sus' : Suspended (Except Failure Answer)}
    {now : Duration} {reading : Instant} {b : Backend}
    (h : sus.program.Obeys P.contract (fun _ _ => True) t.history)
    (hrunning : (t.after (sus.step now reading b)).status = .running sus') :
    sus'.program.Obeys P.contract (fun _ _ => True) (t.after (sus.step now reading b)).history := by
  rcases sus.step_cases now reading b with ⟨r, hprogram, hstep⟩ | ⟨next, hprogram, hstep⟩ |
    ⟨c, next, phase, b', hprogram, hattempt, hstep⟩ | ⟨c, next, r, b', hprogram, hattempt, hstep⟩
  all_goals rw [hstep] at hrunning ⊢
  · cases hrunning
  · rw [Task.running_after_telling hrunning]
    rw [hprogram] at h
    exact h reading
  · cases hrunning
    rw [Task.after, Option.toList_none, List.append_nil]
    exact h
  · rw [Task.running_after_telling hrunning]
    rw [hprogram] at h
    exact h.2 r

theorem System.obeys_run {P : Command → Rule} (hP : Rule.Obeyed P) (actions : List Action) {i : Nat}
    {t : Task} {sus : Suspended (Except Failure Answer)} (hr : (run empty actions).Runs i t sus) :
    sus.program.Obeys (P t.command).contract (fun _ _ => True) t.history := by
  induction actions using List.reverseRecOn generalizing i t sus with
  | nil => simpa [empty] using hr.task
  | append_singleton actions a ih =>
    rw [run_concat] at hr
    rcases hr.of_step with hr | ⟨settings, command, rfl⟩ | ⟨now, reading, t, sus, rfl, hr', rfl⟩
    · exact ih hr
    · cases hr.running
      exact hP settings command
    · exact Task.obeys_after (ih hr') hr.running

end Bookkeeping
