import Bookkeeping.Proofs.Orderly
import Bookkeeping.Session

/-! # Schedules are runs

A schedule runs each job as far as possible before it turns to the next one, and moves the time only
when no job can go on. Taken call by call this is one of the many runs of a system whose tasks are
the jobs. What holds of every run therefore holds of every session that only gives commands and sets
faults.
-/
namespace Bookkeeping
open Bookkeeping.Time

namespace System

def Leads (s s' : System) : Prop := ∃ actions, s.run actions = s'

theorem Leads.refl (s : System) : s.Leads s := ⟨[], rfl⟩

theorem Leads.trans {s s' s'' : System} (h : s.Leads s') (h' : s'.Leads s'') : s.Leads s'' := by
  obtain ⟨before, rfl⟩ := h
  obtain ⟨after, rfl⟩ := h'
  exact ⟨before ++ after, run_append s before after⟩

theorem leads_step (s : System) (a : Action) : s.Leads (s.step a) := ⟨[a], rfl⟩

end System

theorem World.backend_dropUnit (w : World) (u : Option UnitId) :
    (w.dropUnit u).backend = w.backend.dropUnit u := by
  cases u <;> rfl

/-- A system comes to the progress of a program that one of its tasks runs. -/
def System.Brings (s : System) (i : Nat) (t : Task)
    (result : Progress (Except Failure Answer) × World) : Prop :=
  ∃ s' history, s.Leads s' ∧ s'.backend = result.2.backend ∧
    s'.tasks = s.tasks.set i { t with history := history, status := result.1.status }

namespace System

variable {s : System} {i : Nat} {t : Task} {u : Option UnitId} {w : World} {now : Duration}
  {reading : Instant} {phase : Backend.Phase} {p : Program (Except Failure Answer)}

/-- After a step in which a program is told something it goes on from there. -/
theorem Runs.brings_telling {sus : Suspended (Except Failure Answer)} (hr : s.Runs i t sus)
    {o : Observation} (hstep : sus.step now reading s.backend = .telling o u w.backend p)
    (ih : ∀ {s : System} {t : Task}, s.Runs i t ⟨p, .fresh, u⟩ → s.backend = w.backend →
      s.Brings i t (p.advance now .fresh u w)) :
    s.Brings i t (p.advance now .fresh u w) := by
  have hleads := s.leads_step (.advance i now reading)
  have hbackend : (s.step (.advance i now reading)).backend = (p.settle u w.backend).2 := by
    rw [step, hr.advance_eq, hstep]
    rfl
  have htasks : (s.step (.advance i now reading)).tasks =
      s.tasks.set i (t.after (.telling o u w.backend p)) := by
    rw [step, hr.advance_eq, hstep]
  -- a program that is not done yet is suspended before its next call or reading
  have hgoes (hp : p.settle u w.backend = (.suspended ⟨p, .fresh, u⟩, w.backend)) :
      s.Brings i t (p.advance now .fresh u w) := by
    rw [hp] at hbackend
    have hlt := (List.getElem?_eq_some_iff.mp hr.task).1
    obtain ⟨s', history, hs', hbackend', htasks'⟩ := ih (t := t.after (.telling o u w.backend p))
      ⟨by rw [htasks, List.getElem?_set_self hlt], by simp [Task.after, Move.telling, hp,
        Progress.status]⟩ hbackend
    rw [htasks, List.set_set] at htasks'
    exact ⟨s', history, hleads.trans hs', hbackend', htasks'⟩
  cases p with
  | done r => exact ⟨_, _, hleads, hbackend.trans (w.backend_dropUnit u).symm, htasks⟩
  | call c next => exact hgoes rfl
  | clock next => exact hgoes rfl

theorem Runs.brings_untold {sus : Suspended (Except Failure Answer)} (hr : s.Runs i t sus)
    (now : Duration) (reading : Instant) {result : Progress (Except Failure Answer) × World}
    (hstep : sus.step now reading s.backend = ⟨none, result.1, result.2.backend⟩) :
    s.Brings i t result := by
  refine ⟨_, t.history ++ [], s.leads_step (.advance i now reading), ?_, ?_⟩
  · rw [step, hr.advance_eq, hstep]
  · rw [step, hr.advance_eq, hstep]
    rfl

theorem Runs.brings (now : Duration) (hr : s.Runs i t ⟨p, phase, u⟩) (hb : s.backend = w.backend) :
    s.Brings i t (p.advance now phase u w) := by
  induction p generalizing s t phase u w with
  | done r =>
    refine hr.brings_untold now w.clock.next ?_
    rw [hb, Program.advance, w.backend_dropUnit]
    rfl
  | clock next ih =>
    have hstep : (Suspended.mk (.clock next) phase u).step now w.clock.read.1 s.backend =
        .telling (.read w.clock.read.1) u { w with clock := w.clock.read.2 }.backend
          (next w.clock.read.1) := by
      rw [hb]
      rfl
    exact hr.brings_telling hstep fun hr hb => ih _ hr hb
  | call c next ih =>
    rw [Program.advance]
    cases hattempt : w.backend.attempt now c phase with
    | suspended phase' b =>
      refine hr.brings_untold now w.clock.next ?_
      simp only [Suspended.step, hb, hattempt]
    | replied r b =>
      have hstep : (Suspended.mk (.call c next) phase u).step now w.clock.next s.backend =
          .telling (.replied c r) (unitAfter u c r) { w with backend := b }.backend (next r) := by
        simp only [Suspended.step, hb, hattempt]
      exact hr.brings_telling hstep fun hr hb => ih _ hr hb

end System

/-! ## Jobs -/

namespace Job

variable {settings : Settings} {now deadline : Duration} {j : Job} {t : Task} {w : World}
  {s : System} {old rest : List Task}

/-- Where the task of a job is. A job that has not started is a task that has not made a step. -/
def status (settings : Settings) (j : Job) : Status :=
  match j.state with
  | .pending => .running ⟨j.command.program settings, .fresh, none⟩
  | .running sus _ => .running sus
  | .ended o => .ended (some o)

/-- A task runs the command of a job and has come as far. -/
structure Is (config : Settings) (j : Job) (t : Task) : Prop where
  settings : t.settings = config
  command : t.command = j.command
  status : t.status = j.status config

def Brought (settings : Settings) (s : System) (old rest : List Task) (result : Job × World) :
    Prop :=
  ∃ s' t', s.Leads s' ∧ s'.backend = result.2.backend ∧ s'.tasks = old ++ t' :: rest ∧
    result.1.Is settings t'

theorem timeOut_eq {sus : Suspended (Except Failure Answer)} (htasks : s.tasks = old ++ t :: rest)
    (hrun : t.status = .running sus) : s.step (.timeOut old.length) = { s with
      backend := s.backend.dropUnit sus.unit
      tasks := old ++ { t with status := .ended (System.missed t) } :: rest } := by
  simp [System.step, System.stop, hrun, System.setTask, htasks]

theorem brought_go {sus : Suspended (Except Failure Answer)} (htasks : s.tasks = old ++ t :: rest)
    (hb : s.backend = w.backend) (hrun : t.status = .running sus) (hsettings : t.settings = settings)
    (hcommand : t.command = j.command) :
    Brought settings s old rest (j.go settings now deadline sus w) := by
  have hget : s.tasks[old.length]? = some t := by simp [htasks]
  obtain ⟨s', history, hleads, hbackend, htasks'⟩ :=
    System.Runs.brings now ⟨hget, hrun⟩ hb
  rw [htasks, List.set_append_right _ _ (Nat.le_refl _), Nat.sub_self, List.set_cons_zero] at htasks'
  unfold go
  generalize sus.program.advance now sus.phase sus.unit w = result at hbackend htasks'
  obtain ⟨progress, w'⟩ := result
  cases progress with
  | finished r => exact ⟨s', _, hleads, hbackend, htasks', hsettings, hcommand, rfl⟩
  | suspended sus' =>
    simp only
    split
    · have hstep := timeOut_eq htasks' rfl
      refine ⟨_, { t with history, status := .ended (System.missed t) },
        hleads.trans (s'.leads_step (.timeOut old.length)), ?_, ?_, hsettings, hcommand, ?_⟩
      · rw [hstep, World.backend_dropUnit, hbackend]
      · rw [hstep]
        rfl
      · simp [System.missed, status, hsettings, hcommand]
    · exact ⟨s', _, hleads, hbackend, htasks', hsettings, hcommand, rfl⟩

theorem brought_advance (now : Duration) (h : j.Is settings t) (htasks : s.tasks = old ++ t :: rest)
    (hb : s.backend = w.backend) : Brought settings s old rest (j.advance settings now w) := by
  obtain ⟨hsettings, hcommand, hstatus⟩ := h
  have hstays : Brought settings s old rest (j, w) :=
    ⟨s, t, .refl s, hb, htasks, hsettings, hcommand, hstatus⟩
  unfold advance
  unfold status at hstatus
  cases hstate : j.state with
  | ended o => exact hstays
  | running sus deadline =>
    rw [hstate] at hstatus
    exact brought_go htasks hb hstatus hsettings hcommand
  | pending =>
    rw [hstate] at hstatus
    simp only
    split
    · exact brought_go htasks hb hstatus hsettings hcommand
    · exact hstays

end Job

/-! ## Schedules -/

namespace Schedule

variable {settings : Settings} {now : Duration} {jobs : List Job} {ts old : List Task} {w : World}
  {s : System}

/-- A system comes to these jobs after the old tasks, and to what jobs share. -/
def Brought (settings : Settings) (s : System) (old : List Task) (result : List Job × World) : Prop :=
  ∃ s' ts, s.Leads s' ∧ s'.backend = result.2.backend ∧ s'.tasks = old ++ ts ∧
    List.Forall₂ (Job.Is settings) result.1 ts

theorem brought_pass (now : Duration) (h : List.Forall₂ (Job.Is settings) jobs ts)
    (htasks : s.tasks = old ++ ts) (hb : s.backend = w.backend) :
    Brought settings s old (pass settings now jobs w) := by
  induction h generalizing s old w with
  | nil => exact ⟨s, [], .refl s, hb, htasks, .nil⟩
  | @cons j t jobs ts hj _ ih =>
    obtain ⟨s₁, t₁, hleads, hb₁, htasks₁, hj₁⟩ := Job.brought_advance now hj htasks hb
    rw [List.append_cons] at htasks₁
    obtain ⟨s₂, ts₂, hleads₂, hb₂, htasks₂, hjobs₂⟩ := ih htasks₁ hb₁
    refine ⟨s₂, t₁ :: ts₂, hleads.trans hleads₂, hb₂, ?_, .cons hj₁ hjobs₂⟩
    rw [htasks₂, ← List.append_cons]

theorem Brought.bind {f : List Job → World → List Job × World} {result : List Job × World}
    (h : Brought settings s old result)
    (hf : ∀ {s : System} {ts : List Task}, List.Forall₂ (Job.Is settings) result.1 ts →
      s.tasks = old ++ ts → s.backend = result.2.backend →
      Brought settings s old (f result.1 result.2)) :
    Brought settings s old (f result.1 result.2) := by
  obtain ⟨s₁, ts₁, hleads, hb, htasks, hjobs⟩ := h
  obtain ⟨s₂, ts₂, hleads₂, hrest⟩ := hf hjobs htasks hb
  exact ⟨s₂, ts₂, hleads.trans hleads₂, hrest⟩

theorem brought_loop (fuel : Nat) (now : Duration) (h : List.Forall₂ (Job.Is settings) jobs ts)
    (htasks : s.tasks = old ++ ts) (hb : s.backend = w.backend) :
    Brought settings s old (loop settings fuel now jobs w) := by
  induction fuel generalizing s now jobs ts w with
  | zero => exact (brought_pass _ h htasks hb).bind (brought_pass _)
  | succ fuel ih =>
    rw [loop]
    split
    · exact (brought_pass now h htasks hb).bind (ih now)
    · split
      · exact ⟨s, ts, .refl s, hb, htasks, h⟩
      · exact ih _ h htasks hb

theorem command_advance (settings : Settings) (now : Duration) (j : Job) (w : World) :
    (j.advance settings now w).1.command = j.command := by
  have hgo (sus : Suspended (Except Failure Answer)) (deadline : Duration) :
      (j.go settings now deadline sus w).1.command = j.command := by
    unfold Job.go
    split
    · rfl
    · split <;> rfl
  unfold Job.advance
  split
  · rfl
  · exact hgo _ _
  · split
    · exact hgo _ _
    · rfl

theorem map_command_pass (settings : Settings) (now : Duration) (jobs : List Job) (w : World) :
    (pass settings now jobs w).1.map (·.command) = jobs.map (·.command) := by
  induction jobs generalizing w with
  | nil => rfl
  | cons j jobs ih => exact congrArg₂ List.cons (command_advance settings now j w) (ih _)

theorem map_command_loop (settings : Settings) (fuel : Nat) (now : Duration) (jobs : List Job)
    (w : World) : (loop settings fuel now jobs w).1.map (·.command) = jobs.map (·.command) := by
  induction fuel generalizing now jobs w with
  | zero => exact (map_command_pass _ _ _ _).trans (map_command_pass _ _ _ _)
  | succ fuel ih =>
    rw [loop]
    split
    · exact (ih _ _ _).trans (map_command_pass _ _ _ _)
    · split
      · rfl
      · exact ih _ _ _

theorem map_of_is (h : List.Forall₂ (Job.Is settings) jobs ts) :
    ts.map (·.command) = jobs.map (·.command) ∧
      ts.filterMap Task.outcome? = jobs.filterMap Job.outcome? := by
  induction h with
  | nil => exact ⟨rfl, rfl⟩
  | @cons j t jobs ts hj _ ih =>
    have heq : t.outcome? = j.outcome? := by
      have hstatus := hj.status
      unfold Job.status at hstatus
      unfold Task.outcome? Job.outcome?
      cases hstate : j.state <;> rw [hstate] at hstatus <;> rw [hstatus]
    rw [List.map_cons, List.map_cons, hj.command, ih.1, List.filterMap_cons, List.filterMap_cons,
      heq, ih.2]
    exact ⟨rfl, rfl⟩

theorem is_begin (settings : Settings) (commands : List (Command × Duration)) :
    List.Forall₂ (Job.Is settings) (commands.map fun (c, start) => .ofCommand c start)
      ((commands.map (·.1)).map (.begin settings)) := by
  induction commands with
  | nil => exact .nil
  | cons c commands ih => exact .cons ⟨rfl, rfl, rfl⟩ ih

theorem run_starts (settings : Settings) (commands : List Command) (s : System) :
    s.run (commands.map (.start settings)) =
      { s with tasks := s.tasks ++ commands.map (.begin settings) } := by
  induction commands generalizing s with
  | nil => simp
  | cons c commands ih =>
    have hrun := ih (s.step (.start settings c))
    rw [System.run, List.map_cons, List.foldl_cons]
    rw [System.run] at hrun
    rw [hrun]
    simp [System.step]

/-- Commands that are run side by side are new tasks of a system, and their outcomes are the outcomes
of these tasks. -/
theorem leads_outcomes (settings : Settings) (commands : List (Command × Duration))
    (hb : s.backend = w.backend) :
    ∃ s' ts, s.Leads s' ∧ s'.backend = (outcomes settings commands w).2.backend ∧
      s'.tasks = s.tasks ++ ts ∧ ts.map (·.command) = commands.map (·.1) ∧
      ts.filterMap Task.outcome? = (outcomes settings commands w).1 := by
  have hstarted : s.Leads { s with
      tasks := s.tasks ++ (commands.map (·.1)).map (.begin settings) } := ⟨_, run_starts _ _ _⟩
  obtain ⟨s', ts, hleads, hbackend, htasks, hjobs⟩ :=
    brought_loop (s := { s with tasks := s.tasks ++ (commands.map (·.1)).map (.begin settings) })
      (fuel (commands.map fun (c, start) => .ofCommand c start)) ⟨0⟩
      (is_begin settings commands) rfl hb
  obtain ⟨hcommands, houtcomes⟩ := map_of_is hjobs
  refine ⟨s', ts, hstarted.trans hleads, hbackend, htasks, ?_, houtcomes⟩
  rw [hcommands, map_command_loop, List.map_map]
  rfl

end Schedule

/-! ## Sessions -/

/-- The action gives commands, sets faults or reads entries. The others reach into the store without
a command. -/
def Action.GivesCommands : Action → Prop
  | .basic (.command _) | .concurrent _ | .reopen .. | .entriesFor _ | .audit _
  | .failOn _ | .delayLocks _ | .inject _ | .heal => True
  | _ => False

namespace Session

variable {s : Session} {sys : System}

theorem leads_onFaults (hb : sys.backend = s.world.backend) (f : Faults → Faults) :
    ∃ sys', sys.Leads sys' ∧ sys'.backend = (s.onFaults f).world.backend := by
  refine ⟨_, sys.leads_step (.arm (f s.world.backend.faults)), ?_⟩
  rw [System.step, hb]
  rfl

theorem leads_command (hb : sys.backend = s.world.backend) (c : Command) :
    ∃ sys', sys.Leads sys' ∧ sys'.backend = (s.runCommand c).2.2.world.backend := by
  obtain ⟨sys', ts, hleads, hbackend, -⟩ := Schedule.leads_outcomes s.settings [(c, ⟨0⟩)] hb
  refine ⟨sys', hleads, hbackend.trans ?_⟩
  have hworld : (s.runCommand c).2.2.world = (Schedule.single s.settings c s.world).2 := by
    unfold runCommand
    split <;> rename_i heq <;> rw [heq]
  rw [hworld]
  rfl

theorem leads_perform (hb : sys.backend = s.world.backend) {a : Action} (ha : a.GivesCommands) :
    ∃ sys', sys.Leads sys' ∧ sys'.backend = (s.perform a).2.2.world.backend := by
  cases a with
  | basic a =>
    cases a with
    | command c => exact leads_command hb c
    | call c => cases ha
    | openUnit name => cases ha
    | endUnit name u ending => cases ha
  | concurrent commands =>
    obtain ⟨sys', ts, hleads, hbackend, -⟩ := Schedule.leads_outcomes s.settings commands hb
    exact ⟨sys', hleads, hbackend⟩
  | reopen settings clock => exact ⟨sys, .refl sys, hb⟩
  | entriesFor id => exact ⟨sys, .refl sys, hb⟩
  | audit id => exact ⟨sys, .refl sys, hb⟩
  | failOn op => exact leads_onFaults hb _
  | delayLocks delay => exact leads_onFaults hb _
  | inject i => exact leads_onFaults hb _
  | heal => exact leads_onFaults hb _
  | _ => cases ha

def performAll (s : Session) (as : List Action) : Session :=
  as.foldl (fun s a => (s.perform a).2.2) s

/-- A session over an empty store has the store and the faults of a run. -/
theorem exists_run (settings : Settings) (clock : Clock) (as : List Action)
    (h : ∀ a ∈ as, a.GivesCommands) : ∃ actions, (System.run .empty actions).backend =
      (performAll { settings, world := ⟨{}, clock⟩ } as).world.backend := by
  induction as using List.reverseRecOn with
  | nil => exact ⟨[], rfl⟩
  | append_singleton as a ih =>
    obtain ⟨before, hbefore⟩ := ih fun b hb => h b (List.mem_append_left _ hb)
    obtain ⟨sys', ⟨after, rfl⟩, hbackend⟩ := leads_perform hbefore (h a (by simp))
    refine ⟨before ++ after, ?_⟩
    rw [System.run_append, hbackend]
    simp [performAll]

end Session

end Bookkeeping
