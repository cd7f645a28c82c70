import Bookkeeping.Proofs.Deadlock
import Bookkeeping.Proofs.Execution
import Bookkeeping.Proofs.Scheduling
import Bookkeeping.Proofs.Tasks
import Mathlib.Data.List.MinMax

/-! # Commands one after the other

A command that has a store to itself ends, whatever is armed on the store, and leaves no unit of work
open. It then has either taken its full effect or left the rows and the entries as they were.
-/
namespace Bookkeeping
open Bookkeeping.Time

/-- Runs a command by itself, whatever is armed. -/
def Backend.serve (b : Backend) (v : Visit) : Option Outcome × Backend :=
  let (o, w) := Schedule.single v.settings v.command ⟨b, v.clock⟩
  (o, w.backend)

/-! ## Every command ends -/

namespace Job

variable {settings : Settings} {now deadline : Duration} {j : Job} {w : World}

theorem state_go (settings : Settings) (now deadline : Duration)
    (sus : Suspended (Except Failure Answer)) (j : Job) (w : World) :
    (∃ o, (j.go settings now deadline sus w).1.state = .ended o) ∨
      (now.nanos < deadline.nanos ∧
        ∃ sus', (j.go settings now deadline sus w).1.state = .running sus' deadline) := by
  unfold go
  split
  · exact .inl ⟨_, rfl⟩
  · split
    · exact .inl ⟨_, rfl⟩
    · rename_i hlate
      exact .inr ⟨Nat.lt_of_not_le hlate, _, rfl⟩

theorem advance_ended {o : Outcome} (h : j.state = .ended o) :
    j.advance settings now w = (j, w) := by
  simp only [advance, h]

theorem advance_running {sus : Suspended (Except Failure Answer)}
    (h : j.state = .running sus deadline) :
    j.advance settings now w = j.go settings now deadline sus w := by
  simp only [advance, h]

theorem advance_pending (h : j.state = .pending) (hstart : j.start.nanos ≤ now.nanos) :
    j.advance settings now w = j.go settings now ⟨now.nanos + settings.timeout.duration.nanos⟩
      ⟨j.command.program settings, .fresh, none⟩ w := by
  simp only [advance, h, if_pos hstart]

variable (settings w) in
/-- Two turns end a job, the first after all its timers and the second a timeout later. -/
theorem ended_advance_advance (hlate : ∀ t ∈ j.timers, t.nanos ≤ now.nanos) :
    ∃ o, ((j.advance settings now w).1.advance settings
      ⟨now.nanos + settings.timeout.duration.nanos⟩ (j.advance settings now w).2).1.state =
        .ended o := by
  have hover {sus : Suspended (Except Failure Answer)} {deadline late : Duration} {j : Job} (w : World)
      (hj : j.state = .running sus deadline) (hle : deadline.nanos ≤ late.nanos) :
      ∃ o, (j.advance settings late w).1.state = .ended o := by
    rw [advance_running hj]
    rcases state_go settings late deadline sus j w with hended | ⟨hlt, -⟩
    · exact hended
    · omega
  have hstays {j : Job} {o : Outcome} {late : Duration} (w : World) (hj : j.state = .ended o) :
      (j.advance settings late w).1.state = .ended o := by
    rw [advance_ended hj, hj]
  cases hstate : j.state with
  | ended o =>
    have hfirst : (j.advance settings now w).1.state = .ended o := hstays w hstate
    exact ⟨o, hstays _ hfirst⟩
  | running sus deadline =>
    have hdeadline : deadline.nanos ≤ now.nanos := by
      apply hlate
      unfold timers
      rw [hstate]
      split <;> simp_all
    obtain ⟨o, hfirst⟩ := hover w hstate hdeadline
    exact ⟨o, hstays _ hfirst⟩
  | pending =>
    have hstart : j.start.nanos ≤ now.nanos := hlate _ (by simp [timers, hstate])
    rw [advance_pending hstate hstart]
    rcases state_go settings now ⟨now.nanos + settings.timeout.duration.nanos⟩
      ⟨j.command.program settings, .fresh, none⟩ j w with ⟨o, hfirst⟩ | ⟨-, sus, hfirst⟩
    · exact ⟨o, hstays _ hfirst⟩
    · exact hover _ hfirst (Nat.le_refl _)

end Job

namespace Schedule

variable {settings : Settings} {now : Duration} {j : Job} {w : World}

theorem pass_singleton (settings : Settings) (now : Duration) (j : Job) (w : World) :
    pass settings now [j] w = ([(j.advance settings now w).1], (j.advance settings now w).2) := rfl

variable (settings) in
theorem le_endOfTime {t : Duration} (ht : t ∈ j.timers) :
    t.nanos ≤ (endOfTime settings [j]).nanos := by
  have hle : t.nanos ≤ ((j.timers.map Duration.nanos).foldl max 0) := by
    rw [← List.foldr_eq_foldl]
    exact List.le_max_of_le' 0 (List.mem_map_of_mem ht) (Nat.le_refl _)
  simp only [endOfTime, List.flatMap_cons, List.flatMap_nil, List.append_nil]
  omega

variable (settings) in
/-- No job outlives the fuel of a schedule. -/
theorem loop_singleton (fuel : Nat) (now : Duration) (j : Job) (w : World) :
    ∃ j' w' o, loop settings fuel now [j] w = ([j'], w') ∧ j'.state = .ended o := by
  induction fuel generalizing now j w with
  | zero =>
    obtain ⟨o, hended⟩ := Job.ended_advance_advance settings w fun t ht => le_endOfTime settings ht
    exact ⟨_, _, o, rfl, hended⟩
  | succ fuel ih =>
    rw [loop]
    split
    · rw [pass_singleton]
      exact ih now _ _
    · cases hnext : nextTimer [j] with
      | some t => exact ih ⟨t⟩ j w
      | none =>
        cases hstate : j.state with
        | ended o => exact ⟨j, w, o, rfl, hstate⟩
        | pending => simp [nextTimer, Job.timers, hstate] at hnext
        | running sus deadline =>
          have htimer : deadline ∈ j.timers := by
            unfold Job.timers
            rw [hstate]
            split <;> simp_all
          have hnil : j.timers = [] := by simpa [nextTimer] using hnext
          rw [hnil] at htimer
          cases htimer

/-- A command by itself is one task more of a system, which ends with the outcome of the command. -/
theorem leads_single {s : System} (settings : Settings) (command : Command)
    (hb : s.backend = w.backend) :
    ∃ s' t o, s.Leads s' ∧ s'.backend = (single settings command w).2.backend ∧
      s'.tasks = s.tasks ++ [t] ∧ t.settings = settings ∧ t.command = command ∧
      t.status = .ended (some o) ∧ (single settings command w).1 = some o := by
  let started : System := { s with tasks := s.tasks ++ [.begin settings command] }
  have hstarted : s.Leads started := s.leads_step (.start settings command)
  obtain ⟨s', ts, hleads, hbackend, htasks, hjobs⟩ :=
    brought_loop (s := started) (fuel [.ofCommand command ⟨0⟩]) ⟨0⟩
      (is_begin settings [(command, ⟨0⟩)]) rfl hb
  obtain ⟨j, w', o, hloop, hended⟩ :=
    loop_singleton settings (fuel [.ofCommand command ⟨0⟩]) ⟨0⟩ (.ofCommand command ⟨0⟩) w
  have hcommand := map_command_loop settings (fuel [.ofCommand command ⟨0⟩]) ⟨0⟩
    [.ofCommand command ⟨0⟩] w
  have hsingle : single settings command w = (some o, w') := by
    simp [single, outcomes, run, hloop, Job.outcome?, hended]
  simp only [List.map_cons, List.map_nil, hloop] at hjobs hbackend hcommand
  obtain ⟨t, ts, hj, hrest, rfl⟩ := List.forall₂_cons_left_iff.mp hjobs
  cases hrest
  have hstatus : t.status = .ended (some o) := by rw [hj.status, Job.status, hended]
  refine ⟨s', t, o, hstarted.trans hleads, ?_, htasks, hj.settings, ?_, hstatus, ?_⟩
  · rw [hsingle]
    exact hbackend
  · exact hj.command.trans (List.cons.inj hcommand).1
  · rw [hsingle]

end Schedule

/-! ## What a command leaves behind -/

namespace System

variable {s s' : System}

theorem Idle.refl (s : System) : s.Idle s := ⟨rfl, rfl, rfl⟩

theorem Idle.trans {s'' : System} (h : s.Idle s') (h' : s'.Idle s'') : s.Idle s'' :=
  ⟨h'.rows.trans h.rows, h'.entries.trans h.entries, h'.commits.trans h.commits⟩

theorem run_append_cons (s : System) (before : List Action) (a : Action) (after : List Action) :
    s.run (before ++ a :: after) = ((s.run before).step a).run after := by
  rw [run_append]
  rfl

theorem Orderly.run_from (h : s.Orderly) (actions : List Action) : (s.run actions).Orderly := by
  induction actions using List.reverseRecOn with
  | nil => exact h
  | append_singleton actions a ih =>
    rw [run_concat]
    exact (ih.step a).1

theorem Queued.run_from (h : s.Queued) (ho : s.Orderly) (actions : List Action) :
    (s.run actions).Queued := by
  induction actions using List.reverseRecOn with
  | nil => exact h
  | append_singleton actions a ih =>
    rw [run_concat]
    exact ih.step (ho.run_from actions) a

/-- A run commits nothing, or there is a first action that commits. -/
theorem Orderly.idle_or_lands (h : s.Orderly) (actions : List Action) :
    s.Idle (s.run actions) ∨ ∃ before a after i answer, actions = before ++ a :: after ∧
      s.Idle (s.run before) ∧ (s.run before).Lands a i answer := by
  induction actions using List.reverseRecOn with
  | nil => exact .inl (.refl s)
  | append_singleton actions a ih =>
    rw [run_concat]
    rcases ih with hidle | ⟨before, b, after, i, answer, rfl, hidle, hlands⟩
    · have ho := h.run_from actions
      rcases (ho.step a).2 with hstep | ⟨i, now, reading, t, p, -, hc⟩
      · exact .inl (hidle.trans hstep)
      · exact .inr ⟨actions, a, [], i, p.answer, rfl, hidle, hc.lands ho⟩
    · exact .inr ⟨before, b, after ++ [a], i, answer, by simp, hidle, hlands⟩

theorem Lands.task_run {a : Action} {i : Nat} {answer : Answer} (h : s.Lands a i answer)
    (after : List Action) :
    ∃ t', ((s.step a).run after).tasks[i]? = some t' ∧
      t'.status = .ended (some (.answered answer)) ∧
      t'.command.Lands t'.settings s.store (s.step a).store answer := by
  obtain ⟨t, sus, -, hlands, history, htask⟩ := h.task
  exact ⟨_, ended_run htask rfl after, rfl, hlands⟩

/-- If no other task is there, nothing is committed after a task has landed. -/
theorem Lands.idle_after {a : Action} {i : Nat} {answer : Answer} (h : s.Lands a i answer)
    (ho : s.Orderly) (after : List Action)
    (halone : ∀ (j : Nat) (t : Task), ((s.step a).run after).tasks[j]? = some t → j = i) :
    (s.step a).Idle ((s.step a).run after) := by
  have ho' := (ho.step a).1
  rcases ho'.idle_or_lands after with hidle | ⟨before, b, rest, j, answer', rfl, hidle, hlands⟩
  · exact hidle
  · exfalso
    rw [run_append_cons] at halone
    obtain ⟨t, htask, -⟩ := hlands.task_run rest
    have hnodup := ((ho'.run_from before).step b).1.nodup
    rw [hlands.commits, hidle.commits, h.commits, halone j t htask] at hnodup
    have htwice : s.commits ++ [i] ++ [i] = s.commits ++ [i, i] := by simp
    rw [htwice] at hnodup
    have hpair := (List.nodup_append.mp hnodup).2.1
    simp at hpair

theorem not_runs_of_ended {t : Task} {o : Option Outcome} (htasks : s.tasks = [t])
    (hend : t.status = .ended o) (i : Nat) (t' : Task) (sus : Suspended (Except Failure Answer)) :
    ¬s.Runs i t' sus := by
  intro hr
  have hget := hr.task
  rw [htasks, List.getElem?_singleton] at hget
  split at hget
  · cases hget
    rw [hr.running] at hend
    cases hend
  · cases hget

theorem Queued.ready (h : s.Queued) (ho : s.Orderly) (hended : ∀ i t sus, ¬s.Runs i t sus) :
    s.store.Ready := by
  have hclosed (u : UnitId) : ¬s.store.IsOpen u := by
    intro hu
    obtain ⟨i, t, sus, hr, -⟩ := h.owned u hu
    exact hended i t sus hr
  refine ⟨⟨?_, ?_⟩, ho.reached⟩
  · rw [← List.map_eq_nil_iff (f := Prod.fst)]
    exact List.eq_nil_iff_forall_not_mem.mpr hclosed
  · refine List.eq_nil_iff_forall_not_mem.mpr fun p hp => ?_
    exact hclosed p.1 (h.store.isOpen p.1 p.2 hp)

end System

namespace Store.Ready

variable {s : Store}

theorem isOpen (h : s.Ready) (u : UnitId) : ¬s.IsOpen u := by
  simp [IsOpen, h.quiet.1]

theorem unit_eq (h : s.Ready) (u : UnitId) : s.unit u = {} := unit_of_not_isOpen (h.isOpen u)

theorem sound (h : s.Ready) : s.Sound where
  names := by simp [h.quiet.1]
  lt_opened u hu := absurd hu (h.isOpen u)
  nodup_held u := by simp [h.unit_eq]
  exclusive u v id hu := by simp [h.unit_eq] at hu

theorem not_waiting (h : s.Ready) (p : UnitId × AccountId) : p ∉ s.waiting := by
  simp [h.quiet.2]

theorem orderly (h : s.Ready) (faults : Faults) : System.Orderly ⟨⟨s, faults⟩, [], []⟩ where
  sound := h.sound
  reached := h.reached
  tasks := by simp
  apart _ _ _ _ _ _ _ hr := by simpa using hr.task
  nodup := List.nodup_nil
  committed := by simp

theorem queued (h : s.Ready) (faults : Faults) : System.Queued ⟨⟨s, faults⟩, [], []⟩ where
  store :=
    { nodup := h.quiet.2 ▸ List.nodup_nil
      isOpen := fun u x hx => absurd hx (h.not_waiting _)
      not_held := fun u x hx => absurd hx (h.not_waiting _)
      locked := fun u x hx => absurd hx (h.not_waiting _) }
  owned u hu := absurd hu (h.isOpen u)
  lines _ _ _ _ hr := by simpa using hr.task

end Store.Ready

/-- Nothing is committed, though keys may have been given out. -/
structure Store.Same (s s' : Store) : Prop where
  rows : s'.rows = s.rows
  entries : s'.entries = s.entries

theorem Command.Lands.congr {settings : Settings} {command : Command} {answer : Answer}
    {s s₁ s₂ s' : Store} (h : command.Lands settings s₁ s₂ answer) (hs : s.Same s₁)
    (hs' : s₂.Same s') : command.Lands settings s s' answer := by
  obtain ⟨rows, entries⟩ := hs
  obtain ⟨rows', entries'⟩ := hs'
  cases h with
  | opening new first second hentries row stream others =>
    refine .opening ?_ first second ?_ ?_ ?_ ?_ <;>
      simp only [Store.entriesFor, ← entries, entries', ← rows, rows'] <;> assumption
  | movement ne old debit credit first second hentries hrows streams others =>
    refine .movement ne ?_ debit credit first second ?_ ?_ ?_ ?_ <;>
      simp only [Store.entriesFor, ← entries, entries', ← rows, rows'] <;> assumption

theorem Command.Lands.exists_new {settings : Settings} {command : Command} {answer : Answer}
    {s s' : Store} (h : command.Lands settings s s' answer) :
    ∃ new, s'.entries = s.entries ++ new ∧ new.length = 2 := by
  cases h with
  | opening _ _ _ entries => exact ⟨_, entries, rfl⟩
  | movement _ _ _ _ _ _ entries => exact ⟨_, entries, rfl⟩

namespace Backend

variable {b : Backend}

/-- A command by itself ends and leaves no unit of work open. Either it succeeds and has its full
effect, or nothing is committed and it has failed or was a lookup. -/
theorem serve_cases (h : b.store.Ready) (v : Visit) :
    ∃ o, (b.serve v).1 = some o ∧ (b.serve v).2.store.Ready ∧
      ((∃ answer, o = .answered answer ∧
          v.command.Lands v.settings b.store (b.serve v).2.store answer) ∨
        (b.store.Same (b.serve v).2.store ∧
          ∀ answer, o = .answered answer → v.command.transaction? = none)) := by
  have ho := h.orderly b.faults
  obtain ⟨s', t, o, ⟨actions, rfl⟩, hbackend, htasks, hsettings, hcommand, hstatus, hresult⟩ :=
    Schedule.leads_single (s := ⟨b, [], []⟩) (w := ⟨b, v.clock⟩) v.settings v.command rfl
  have ho' := ho.run_from actions
  have hqueued := (h.queued b.faults).run_from ho actions
  have hended := System.not_runs_of_ended htasks hstatus
  have hstore : (b.serve v).2.store = (System.run ⟨b, [], []⟩ actions).store :=
    congrArg Backend.store hbackend.symm
  rw [hstore]
  refine ⟨o, hresult, hqueued.ready ho' hended, ?_⟩
  -- the only task of the system is the command, so no index but 0 is ever committed
  have hget (i : Nat) (t' : Task) (ht : (System.run ⟨b, [], []⟩ actions).tasks[i]? = some t') :
      i = 0 ∧ t' = t := by
    rw [htasks, List.nil_append, List.getElem?_singleton] at ht
    split at ht
    · rename_i hi
      exact ⟨hi, (Option.some.inj ht).symm⟩
    · cases ht
  rcases ho.idle_or_lands actions with hidle | ⟨before, a, after, i, answer, rfl, hidle, hlands⟩
  · refine .inr ⟨⟨hidle.rows, hidle.entries⟩, fun answer hanswer => ?_⟩
    by_contra hwrites
    have hmem := (ho'.succeeded_iff (i := 0) (by rw [htasks]; rfl) (hcommand ▸ hwrites)).mp
      ⟨answer, by rw [hstatus, hanswer]⟩
    rw [hidle.commits] at hmem
    cases hmem
  · rw [System.run_append_cons] at hget ⊢
    obtain ⟨t', htask, hstatus', heffect⟩ := hlands.task_run after
    obtain ⟨rfl, rfl⟩ := hget i t' htask
    rw [hstatus] at hstatus'
    cases hstatus'
    have hafter := hlands.idle_after (ho.run_from before) after fun j t ht => (hget j t ht).1
    refine .inl ⟨answer, rfl, ?_⟩
    rw [hsettings, hcommand] at heffect
    exact heffect.congr ⟨hidle.rows, hidle.entries⟩ ⟨hafter.rows, hafter.entries⟩

theorem serve_same (h : b.store.Ready) {v : Visit}
    (hfail : ∀ answer, (b.serve v).1 ≠ some (.answered answer)) : b.store.Same (b.serve v).2.store := by
  obtain ⟨o, ho, -, ⟨answer, rfl, -⟩ | ⟨hsame, -⟩⟩ := serve_cases h v
  · exact absurd ho (hfail answer)
  · exact hsame

theorem exists_new (h : b.store.Ready) (v : Visit) :
    ∃ new, (b.serve v).2.store.entries = b.store.entries ++ new ∧ new.length ≤ 2 := by
  obtain ⟨o, -, -, ⟨answer, -, hlands⟩ | ⟨hsame, -⟩⟩ := serve_cases h v
  · obtain ⟨new, hentries, hlength⟩ := hlands.exists_new
    exact ⟨new, hentries, Nat.le_of_eq hlength⟩
  · exact ⟨[], by rw [hsame.entries, List.append_nil], by simp⟩

end Backend

end Bookkeeping
