import Bookkeeping.Proofs.Standing

/-! # Systems in order

In every system that actions can make from an empty one, each running task conducts itself well and
what it knows stands, no two tasks share a unit of work, and the book can be made by postings. An
action either leaves the book alone or is the commit of one task, which adds a posting of its command
to the book and ends the task with the answer of that posting.
-/
namespace Bookkeeping
open Bookkeeping.Time

namespace Task

/-- What a task has learned. -/
def knowledge (t : Task) : Knowledge := .ofHistory t.command t.history

def readings (t : Task) : List Instant :=
  t.history.filterMap fun
    | .read now => some now
    | .replied .. => none

/-- A running task conducts itself well, and what it knows stands. -/
structure Steady (t : Task) (sus : Suspended (Except Failure Answer)) (s : Store) : Prop where
  active : t.knowledge.ending = none
  unit : sus.unit = t.knowledge.unit
  runs : sus.program.Obeys .conduct (t.command.Ends t.settings) t.knowledge
  stands : ∀ u, sus.unit = some u → t.knowledge.Stands u s

/-- The outcome of a task fits what it knows. One that was stopped has committed nothing. -/
def Closed (t : Task) (outcome : Option Outcome) : Prop :=
  (∃ r, outcome = some (.ofResult r) ∧ t.command.Ends t.settings t.knowledge r) ∨
    (t.knowledge.ending = none ∧ ∀ a, outcome ≠ some (.answered a))

def InOrder (t : Task) (s : Store) : Prop :=
  match t.status with
  | .running sus => t.Steady sus s
  | .ended outcome => t.Closed outcome

variable {t : Task} {sus : Suspended (Except Failure Answer)} {s s' : Store}

theorem Steady.inOrder (h : t.Steady sus s) (ht : t.status = .running sus) : t.InOrder s := by
  rw [InOrder, ht]
  exact h

theorem InOrder.steady (h : t.InOrder s) (ht : t.status = .running sus) : t.Steady sus s := by
  rw [InOrder, ht] at h
  exact h

theorem InOrder.spares {u : Option UnitId} (h : t.InOrder s) (hs : s.Spares s' u)
    (hu : ∀ sus v, t.status = .running sus → sus.unit = some v → u ≠ some v) : t.InOrder s' := by
  unfold InOrder at h ⊢
  split
  · rename_i sus hrun
    rw [hrun] at h
    exact ⟨h.active, h.unit, h.runs, fun v hv => hs.stands v _ (hu sus v hrun hv) (h.stands v hv)⟩
  · rename_i hend
    rw [hend] at h
    exact h

theorem readings_knowledge (t : Task) : t.knowledge.readings = t.readings := by
  unfold knowledge readings
  induction t.history using List.reverseRecOn with
  | nil => rfl
  | append_singleton history o ih =>
    rw [Knowledge.ofHistory_concat, List.filterMap_append]
    cases o with
    | read now => exact congrArg (· ++ [now]) ih
    | replied c r => rw [Knowledge.readings_tell, ih]; simp

end Task

namespace System

variable {s s' : System} {i j : Nat} {t t' : Task} {sus : Suspended (Except Failure Answer)}

structure Runs (s : System) (i : Nat) (t : Task) (sus : Suspended (Except Failure Answer)) :
    Prop where
  task : s.tasks[i]? = some t
  running : t.status = .running sus

theorem Runs.unique {sus' : Suspended (Except Failure Answer)} (h : s.Runs i t sus)
    (h' : s.Runs i t' sus') : t = t' ∧ sus = sus' := by
  cases h.task.symm.trans h'.task
  cases h.running.symm.trans h'.running
  exact ⟨rfl, rfl⟩

/-- The tasks of a system do not get in each other's way, and its book is made by postings. -/
structure Orderly (s : System) : Prop where
  sound : s.store.Sound
  reached : s.store.book.Reached
  tasks : ∀ (i : Nat) (t : Task), s.tasks[i]? = some t → t.InOrder s.store
  apart : ∀ i j t t' sus sus' u, s.Runs i t sus → s.Runs j t' sus' → sus.unit = some u →
    sus'.unit = some u → i = j
  nodup : s.commits.Nodup
  committed : ∀ i : Nat, i ∈ s.commits ↔
    ∃ t, s.tasks[i]? = some t ∧ t.knowledge.ending = some .committed

theorem orderly_empty : Orderly empty where
  sound := Store.sound_empty
  reached := .empty
  tasks := by simp [empty]
  apart _ _ _ _ _ _ _ h := by simpa [empty] using h.task
  nodup := List.nodup_nil
  committed := by simp [empty]

namespace Orderly

theorem steady (h : s.Orderly) (hr : s.Runs i t sus) : t.Steady sus s.store :=
  (h.tasks i t hr.task).steady hr.running

theorem not_mem_commits (h : s.Orderly) (hr : s.Runs i t sus) : i ∉ s.commits := by
  intro hi
  obtain ⟨t', ht', hend⟩ := (h.committed i).mp hi
  rw [hr.task] at ht'
  cases ht'
  rw [(h.steady hr).active] at hend
  cases hend

theorem isOpen (h : s.Orderly) (hr : s.Runs i t sus) {u : UnitId} (hu : sus.unit = some u) :
    s.store.IsOpen u :=
  ((h.steady hr).stands u hu).isOpen

/-- One running task has come further and leaves to the others what they know. -/
theorem of_set (h : s.Orderly) (hr : s.Runs i t sus) (htasks : s'.tasks = s.tasks.set i t')
    (hspares : s.store.Spares s'.store sus.unit) (hreached : s'.store.book.Reached)
    (hself : t'.InOrder s'.store)
    (hunit : ∀ sus' u, t'.status = .running sus' → sus'.unit = some u →
      sus.unit = some u ∨ ¬s.store.IsOpen u)
    (hcommits : s'.commits =
      if t'.knowledge.ending = some .committed then s.commits ++ [i] else s.commits) :
    s'.Orderly := by
  have hi : i < s.tasks.length := (List.getElem?_eq_some_iff.mp hr.task).1
  have hget (j : Nat) : s'.tasks[j]? = if i = j then some t' else s.tasks[j]? := by
    rw [htasks, List.getElem?_set, if_pos hi]
  have hself? {t₁ : Task} (ht : s'.tasks[i]? = some t₁) : t₁ = t' := by
    rw [hget, if_pos rfl] at ht
    exact (Option.some.inj ht).symm
  have hother {j : Nat} (hj : i ≠ j) : s'.tasks[j]? = s.tasks[j]? := by
    rw [hget, if_neg hj]
  have hruns {j : Nat} {t₁ : Task} {sus₁ : Suspended _} (hj : i ≠ j) (h₁ : s'.Runs j t₁ sus₁) :
      s.Runs j t₁ sus₁ := ⟨hother hj ▸ h₁.task, h₁.running⟩
  -- the unit of the task is the one it had, or was not open before
  have hclash {j : Nat} {t₁ t₂ : Task} {sus₁ sus₂ : Suspended _} {u : UnitId} (hj : i ≠ j)
      (h₁ : s'.Runs i t₁ sus₁) (h₂ : s'.Runs j t₂ sus₂) (hu₁ : sus₁.unit = some u)
      (hu₂ : sus₂.unit = some u) : False := by
    have h₂ := hruns hj h₂
    have hrunning := h₁.running
    rw [hself? h₁.task] at hrunning
    rcases hunit sus₁ u hrunning hu₁ with hu | hu
    · exact hj (h.apart i j t t₂ sus sus₂ u hr h₂ hu hu₂)
    · exact hu (h.isOpen h₂ hu₂)
  refine ⟨hspares.sound, hreached, fun j t₁ ht₁ => ?_, ?_, ?_, fun j => ?_⟩
  · by_cases hj : i = j
    · subst hj
      rw [hself? ht₁]
      exact hself
    · apply (h.tasks j t₁ (hother hj ▸ ht₁)).spares hspares
      intro sus₁ v hrun hv hu
      exact hj (h.apart i j t t₁ sus sus₁ v hr ⟨hother hj ▸ ht₁, hrun⟩ hu hv)
  · intro j j' t₁ t₂ sus₁ sus₂ u h₁ h₂ hu₁ hu₂
    by_cases hj : i = j <;> by_cases hj' : i = j'
    · exact hj.symm.trans hj'
    · subst hj
      exact (hclash hj' h₁ h₂ hu₁ hu₂).elim
    · subst hj'
      exact (hclash hj h₂ h₁ hu₂ hu₁).elim
    · exact h.apart j j' t₁ t₂ sus₁ sus₂ u (hruns hj h₁) (hruns hj' h₂) hu₁ hu₂
  · rw [hcommits]
    split
    · refine List.nodup_append.mpr ⟨h.nodup, by simp, ?_⟩
      intro a ha b hb he
      rw [List.mem_singleton] at hb
      exact h.not_mem_commits hr (hb ▸ he ▸ ha)
    · exact h.nodup
  · have hnot := h.not_mem_commits hr
    rw [hcommits]
    by_cases hj : i = j
    · subst hj
      split <;> simp_all
    · rw [hother hj, ← h.committed j]
      split <;> simp [Ne.symm hj]

end Orderly

/-! ## What an action does -/

/-- Nothing is committed. -/
structure Idle (s s' : System) : Prop where
  rows : s'.store.rows = s.store.rows
  entries : s'.store.entries = s.store.entries
  commits : s'.commits = s.commits

/-- A task commits a posting of its command and ends with its answer. -/
structure Commits (s : System) (i : Nat) (t : Task) (p : Posting) (s' : System) : Prop where
  runs : ∃ sus, s.Runs i t sus
  opened : t.knowledge.unit ≠ none
  posts : t.command.Posts t.settings t.readings s.store.book p
  rows : s'.store.rows = p.rows.foldr putRow s.store.rows
  entries : ∃ new, s'.store.entries = s.store.entries ++ new ∧ new.map (·.toDraft) = p.drafts
  /-- Both accounts of a transfer were locked when its transaction was looked up and not found. -/
  cleared : ∀ id ∈ t.command.accounts, s.store.book.row id ≠ none → id ∈ t.knowledge.cleared
  /-- No other task has locked an account of the command. -/
  apart : ∀ j t' sus' u, j ≠ i → s.Runs j t' sus' → sus'.unit = some u →
    ∀ id ∈ t'.knowledge.locked.map (·.1), id ∉ t.command.accounts
  commits : s'.commits = s.commits ++ [i]
  tasks : ∃ u, s'.tasks = s.tasks.set i
    { t with
      history := t.history ++ [.replied (.commit u) (.ok ())]
      status := .ended (some (.answered p.answer)) }

theorem Idle.book (h : s.Idle s') : s'.store.book = s.store.book :=
  Store.book_eq h.rows h.entries

theorem Commits.book {p : Posting} (h : s.Commits i t p s') :
    s'.store.book = s.store.book.post p := by
  obtain ⟨new, hentries, hnew⟩ := h.entries
  rw [Store.book, h.rows, hentries, List.map_append, hnew]
  rfl

theorem Commits.exists_task {p : Posting} (h : s.Commits i t p s') :
    ∃ t', s'.tasks[i]? = some t' ∧ t'.status = .ended (some (.answered p.answer)) ∧
      t'.command = t.command ∧ t'.settings = t.settings ∧ t'.readings = t.readings := by
  obtain ⟨sus, hr⟩ := h.runs
  obtain ⟨u, htasks⟩ := h.tasks
  have hlt := (List.getElem?_eq_some_iff.mp hr.task).1
  refine ⟨_, (congrArg (·[i]?) htasks).trans (List.getElem?_set_self hlt), rfl, rfl, rfl, ?_⟩
  simp [Task.readings]

theorem Commits.not_runs {p : Posting} (h : s.Commits i t p s') : ¬s'.Runs i t' sus := by
  intro hr
  obtain ⟨t₁, ht₁, hend, -⟩ := h.exists_task
  rw [hr.task] at ht₁
  cases ht₁
  rw [hr.running] at hend
  cases hend

end System

/-- A program stopped at a call stays there or is told the reply; one that reads the clock is told
the time. -/
theorem Suspended.step_cases {α : Type} (now : Duration) (reading : Instant) (sus : Suspended α)
    (b : Backend) :
    (∃ a, sus.program = .done a ∧
      sus.step now reading b = ⟨none, .finished a, b.dropUnit sus.unit⟩) ∨
    (∃ next, sus.program = .clock next ∧
      sus.step now reading b = .telling (.read reading) sus.unit b (next reading)) ∨
    (∃ c next phase b', sus.program = .call c next ∧
      b.attempt now c sus.phase = .suspended phase b' ∧
      sus.step now reading b = ⟨none, .suspended ⟨sus.program, phase, sus.unit⟩, b'⟩) ∨
    (∃ c next r b', sus.program = .call c next ∧ b.attempt now c sus.phase = .replied r b' ∧
      sus.step now reading b =
        .telling (.replied c r) (unitAfter sus.unit c r) b' (next r)) := by
  obtain ⟨program, phase, unit⟩ := sus
  cases program with
  | done a => exact .inl ⟨a, rfl, rfl⟩
  | clock next => exact .inr (.inl ⟨next, rfl, rfl⟩)
  | call c next =>
    refine .inr (.inr ?_)
    cases h : b.attempt now c phase with
    | suspended phase' b' =>
      exact .inl ⟨c, next, phase', b', rfl, h, by simp only [Suspended.step, h]⟩
    | replied r b' => exact .inr ⟨c, next, r, b', rfl, h, by simp only [Suspended.step, h]⟩

namespace Task

variable {t : Task} {b : Backend} {o : Observation} {u : Option UnitId}
  {p : Program (Except Failure Answer)}

@[simp] theorem knowledge_after_telling :
    (t.after (.telling o u b p)).knowledge = t.knowledge.tell o :=
  Knowledge.ofHistory_concat _ _ _

theorem inOrder_after_telling (hp : p.Obeys .conduct (t.command.Ends t.settings) (t.knowledge.tell o))
    (hu : u = (t.knowledge.tell o).unit)
    (hs : (t.knowledge.tell o).ending = none → ∀ v, u = some v →
      (t.knowledge.tell o).Stands v b.store) :
    (t.after (.telling o u b p)).InOrder (p.settle u b).2.store := by
  have hk : (t.after (.telling o u b p)).knowledge = t.knowledge.tell o := knowledge_after_telling
  cases p with
  | done r =>
    refine .inl ⟨r, rfl, ?_⟩
    rw [hk]
    exact hp
  | call c next =>
    refine Steady.inOrder ⟨?_, ?_, ?_, fun v hv => ?_⟩ rfl
    · rw [hk]; exact hp.1.1
    · rw [hk]; exact hu
    · rw [hk]; exact hp
    · rw [hk]; exact hs hp.1.1 v hv
  | clock next =>
    refine Steady.inOrder ⟨?_, ?_, ?_, fun v hv => ?_⟩ rfl
    · rw [hk]; exact hp.1
    · rw [hk]; exact hu
    · rw [hk]; exact hp
    · rw [hk]; exact hs hp.1 v hv

theorem running_after_telling {sus : Suspended (Except Failure Answer)}
    (h : (t.after (.telling o u b p)).status = .running sus) : sus = ⟨p, .fresh, u⟩ := by
  cases p <;> cases h <;> rfl

end Task

theorem Program.settle_spares {α : Type} {s : Store} {p : Program α} {u u' : Option UnitId}
    {b : Backend} (h : s.Spares b.store u) (hu : ∀ v, u' = some v → u = some v ∨ ¬s.IsOpen v) :
    s.Spares (p.settle u' b).2.store u := by
  cases p with
  | done a => exact h.dropUnit hu
  | call c next => exact h
  | clock next => exact h

@[simp] theorem Program.rows_settle {α : Type} (p : Program α) (u : Option UnitId) (b : Backend) :
    (p.settle u b).2.store.rows = b.store.rows := by
  cases p with
  | done a => exact Store.rows_dropUnit b u
  | call c next => rfl
  | clock next => rfl

@[simp] theorem Program.entries_settle {α : Type} (p : Program α) (u : Option UnitId)
    (b : Backend) : (p.settle u b).2.store.entries = b.store.entries := by
  cases p with
  | done a => exact Store.entries_dropUnit b u
  | call c next => rfl
  | clock next => rfl

theorem Knowledge.ending_tell {k : Knowledge} (h : k.ending = none) (o : Observation) :
    (k.tell o).ending = some .committed ↔ o.isCommit = true := by
  cases o with
  | read now => simp [tell, h, Observation.isCommit]
  | replied c r =>
    cases c with
    | openUnit => cases r <;> simp [tell, h, Observation.isCommit]
    | lockAccount v id => cases r <;> simp [tell, h, Observation.isCommit]
    | findByTransaction t =>
      cases r with
      | ok es => cases es <;> simp [tell, h, Observation.isCommit]
      | error e => rw [tell]; split <;> simp [h, Observation.isCommit]
    | findByTransactionIn v t =>
      cases r with
      | ok es => cases es <;> simp [tell, h, Observation.isCommit]
      | error e => rw [tell]; split <;> simp [h, Observation.isCommit]
    | findLastIn v id => cases r <;> simp [tell, h, Observation.isCommit]
    | append v drafts => cases r <;> simp [tell, h, Observation.isCommit]
    | upsertAccount v a => cases r <;> simp [tell, h, Observation.isCommit]
    | commit v => cases r <;> simp [tell, Observation.isCommit]
    | _ => simp [tell, h, Observation.isCommit]

namespace System

variable {s : System} {i : Nat} {t : Task} {sus : Suspended (Except Failure Answer)}
  {now : Duration} {reading : Instant}

theorem Runs.advance_eq (hr : s.Runs i t sus) (now : Duration) (reading : Instant) :
    s.advance i now reading =
      { backend := (sus.step now reading s.backend).backend
        tasks := s.tasks.set i (t.after (sus.step now reading s.backend))
        commits :=
          if (sus.step now reading s.backend).told.any Observation.isCommit then s.commits ++ [i]
          else s.commits } := by
  unfold advance
  rw [hr.task]
  simp only [hr.running]

theorem Runs.advance_task (hr : s.Runs i t sus) (now : Duration) (reading : Instant) :
    (s.advance i now reading).tasks[i]? = some (t.after (sus.step now reading s.backend)) := by
  rw [hr.advance_eq, List.getElem?_set_self (List.getElem?_eq_some_iff.mp hr.task).1]

theorem Runs.advance_other (hr : s.Runs i t sus) (now : Duration) (reading : Instant) {j : Nat}
    (hj : i ≠ j) : (s.advance i now reading).tasks[j]? = s.tasks[j]? := by
  rw [hr.advance_eq, List.getElem?_set_ne hj]

theorem advance_of_not_runs (h : ¬∃ t sus, s.Runs i t sus) : s.advance i now reading = s := by
  unfold advance
  split
  · rename_i t ht
    split
    · rename_i sus hrun
      exact absurd ⟨t, sus, ht, hrun⟩ h
    · rfl
  · rfl

theorem Runs.stop_eq (hr : s.Runs i t sus) (outcome : Task → Option Outcome) :
    s.stop i outcome =
      { s with
        backend := s.backend.dropUnit sus.unit
        tasks := s.tasks.set i { t with status := .ended (outcome t) } } := by
  unfold stop
  rw [hr.task]
  simp only [hr.running]
  rfl

theorem stop_of_not_runs (h : ¬∃ t sus, s.Runs i t sus) (outcome : Task → Option Outcome) :
    s.stop i outcome = s := by
  unfold stop
  split
  · rename_i t ht
    split
    · rename_i sus hrun
      exact absurd ⟨t, sus, ht, hrun⟩ h
    · rfl
  · rfl

theorem Runs.of_stop {outcome : Task → Option Outcome} {j : Nat}
    (h : (s.stop i outcome).Runs j t sus) : s.Runs j t sus := by
  unfold stop at h
  split at h
  · rename_i t' ht'
    split at h
    · have ht := h.task
      by_cases hj : i = j
      · subst hj
        rw [setTask, List.getElem?_set_self (List.getElem?_eq_some_iff.mp ht').1] at ht
        cases ht
        cases h.running
      · rw [setTask, List.getElem?_set_ne hj] at ht
        exact ⟨ht, h.running⟩
    · exact h
  · exact h

theorem Runs.of_start {settings : Settings} {command : Command}
    (h : (s.step (.start settings command)).Runs i t sus) :
    s.Runs i t sus ∨ t = .begin settings command := by
  have ht := h.task
  rw [step, List.getElem?_append] at ht
  split at ht
  · exact .inl ⟨ht, h.running⟩
  · exact .inr (List.mem_singleton.mp (List.mem_of_getElem? ht))

/-- A task that runs after an action ran before, has begun, or made the step itself. -/
theorem Runs.of_step {a : Action} {t' : Task} {sus' : Suspended (Except Failure Answer)}
    (h : (s.step a).Runs i t' sus') :
    s.Runs i t' sus' ∨ (∃ settings command, t' = .begin settings command) ∨
      ∃ now reading t sus, a = .advance i now reading ∧ s.Runs i t sus ∧
        t' = t.after (sus.step now reading s.backend) := by
  cases a with
  | start settings command => exact h.of_start.imp_right fun ht => .inl ⟨settings, command, ht⟩
  | advance j now reading =>
    by_cases hr : ∃ t sus, s.Runs j t sus
    · obtain ⟨t, sus, hr⟩ := hr
      have ht := h.task
      by_cases hj : j = i
      · subst hj
        rw [step, hr.advance_task] at ht
        exact .inr (.inr ⟨now, reading, t, sus, rfl, hr, (Option.some.inj ht).symm⟩)
      · rw [step, hr.advance_other now reading hj] at ht
        exact .inl ⟨ht, h.running⟩
    · rw [step, advance_of_not_runs hr] at h
      exact .inl h
  | timeOut j => exact .inl h.of_stop
  | cancel j => exact .inl h.of_stop
  | arm faults => exact .inl ⟨h.task, h.running⟩

namespace Orderly

variable {b : Backend} {o : Observation} {u : Option UnitId} {p : Program (Except Failure Answer)}

theorem of_telling (h : s.Orderly) (hr : s.Runs i t sus)
    (hstep : sus.step now reading s.backend = .telling o u b p)
    (hp : p.Obeys .conduct (t.command.Ends t.settings) (t.knowledge.tell o))
    (hu : u = (t.knowledge.tell o).unit)
    (hs : (t.knowledge.tell o).ending = none → ∀ v, u = some v →
      (t.knowledge.tell o).Stands v b.store)
    (hspares : s.store.Spares b.store sus.unit)
    (hnew : ∀ v, u = some v → sus.unit = some v ∨ ¬s.store.IsOpen v)
    (hreached : b.store.book.Reached) : (s.advance i now reading).Orderly := by
  rw [hr.advance_eq, hstep]
  refine h.of_set hr rfl (Program.settle_spares hspares hnew) ?_ (Task.inOrder_after_telling hp hu hs)
    (fun sus' v hrun hv => hnew v (by rwa [Task.running_after_telling hrun] at hv)) ?_
  · change (p.settle u b).2.store.book.Reached
    rwa [Store.book_eq (Program.rows_settle p u b) (Program.entries_settle p u b)]
  · simp only [Task.knowledge_after_telling, Knowledge.ending_tell (h.steady hr).active]
    rfl

theorem advance_clock (h : s.Orderly) (hr : s.Runs i t sus)
    {next : Instant → Program (Except Failure Answer)} (hprogram : sus.program = .clock next)
    (hstep : sus.step now reading s.backend =
      .telling (.read reading) sus.unit s.backend (next reading)) :
    (s.advance i now reading).Orderly ∧ s.Idle (s.advance i now reading) := by
  have hst := h.steady hr
  have hruns := hst.runs
  rw [hprogram] at hruns
  refine ⟨h.of_telling hr hstep (hruns.2 reading) hst.unit ?_ (.refl h.sound) (fun v => .inl)
    h.reached, ?_⟩
  · exact fun _ v hv => (hst.stands v hv).read reading
  · rw [hr.advance_eq, hstep]
    exact ⟨Program.rows_settle _ _ _, Program.entries_settle _ _ _, rfl⟩

theorem stands_told (h : s.Orderly) (hr : s.Runs i t sus) {c : Call} {r : c.Reply} {s' : Store}
    (hp : t.knowledge.Permits c) (ht : s.store.Told c r s') {v : UnitId}
    (hv : unitAfter sus.unit c r = some v) :
    (sus.unit = some v ∨ ¬s.store.IsOpen v) ∧
      ((t.knowledge.tell (.replied c r)).ending = none →
        (t.knowledge.tell (.replied c r)).Stands v s') := by
  have hst := h.steady hr
  rw [hst.unit, ← Knowledge.unit_tell] at hv
  cases hu : t.knowledge.unit with
  | none =>
    obtain ⟨hnew, hstands⟩ := Knowledge.Stands.opened h.sound hu ht hv
    exact ⟨.inr hnew, fun _ => hstands⟩
  | some w =>
    have hsus : sus.unit = some w := hst.unit.trans hu
    have hstands := hst.stands w hsus
    rw [hp.unit_tell hu r] at hv
    cases hv
    exact ⟨.inl hsus, hstands.told hu hp ht⟩

theorem advance_told (h : s.Orderly) (hr : s.Runs i t sus) {c : Call}
    {next : c.Reply → Program (Except Failure Answer)} {r : c.Reply}
    (hprogram : sus.program = .call c next) (ht : s.store.Told c r b.store)
    (hc : (Observation.replied c r).isCommit = false)
    (hstep : sus.step now reading s.backend =
      .telling (.replied c r) (unitAfter sus.unit c r) b (next r)) :
    (s.advance i now reading).Orderly ∧ s.Idle (s.advance i now reading) := by
  have hst := h.steady hr
  have hruns := hst.runs
  rw [hprogram] at hruns
  obtain ⟨hpermits, hruns⟩ := hruns
  have hsame := ht.same hc
  refine ⟨h.of_telling hr hstep (hruns r) ?_ ?_ (.told h.sound ht hc ?_) ?_ ?_, ?_⟩
  · rw [Knowledge.unit_tell, hst.unit]
  · exact fun hend v hv => (h.stands_told hr hpermits ht hv).2 hend
  · rw [hst.unit]
    exact hpermits.unit?_eq
  · exact fun v hv => (h.stands_told hr hpermits ht hv).1
  · rw [Store.book_eq hsame.1 hsame.2]
    exact h.reached
  · rw [hr.advance_eq, hstep]
    refine ⟨(Program.rows_settle _ _ _).trans hsame.1,
      (Program.entries_settle _ _ _).trans hsame.2, ?_⟩
    exact if_neg (by simp [Move.telling, hc])

theorem advance_commit (h : s.Orderly) (hr : s.Runs i t sus) {v : UnitId}
    {next : (Call.commit v).Reply → Program (Except Failure Answer)}
    (hprogram : sus.program = .call (.commit v) next)
    (ht : s.store.Told (.commit v) (.ok ()) b.store)
    (hstep : sus.step now reading s.backend =
      .telling (.replied (.commit v) (.ok ())) sus.unit b (next (.ok ()))) :
    (s.advance i now reading).Orderly ∧ ∃ p, s.Commits i t p (s.advance i now reading) := by
  have hst := h.steady hr
  have hruns := hst.runs
  rw [hprogram] at hruns
  obtain ⟨hpermits, hruns⟩ := hruns
  have hunit : sus.unit = some v := hst.unit.trans hpermits.2
  have hstands := hst.stands v hunit
  have hnext := hruns (.ok ())
  obtain ⟨p, hready, hdone⟩ := Command.eq_done_of_committed hnext rfl
  have hk : (t.knowledge.tell (.replied (.commit v) (.ok ()))).Stands v s.store :=
    hstands.congr rfl rfl rfl rfl
  obtain ⟨hcommittable, hstore⟩ := ht.commit
  have hposts := hready.posts hk h.reached.kept hcommittable
  have hrows : b.store.rows = p.rows.foldr putRow s.store.rows := by
    rw [hstore, Store.rows_close, Store.merge, hk.rows, hready.rows_eq hk]
  have hentries : b.store.entries = s.store.entries ++ (s.store.unit v).entries := by
    rw [hstore, Store.entries_close, Store.merge]
  have hdrafts : (s.store.unit v).entries.map (·.toDraft) = p.drafts := by
    rw [hk.drafts, hready.drafts_eq]
  have hbook : b.store.book = s.store.book.post p := by
    rw [Store.book, hrows, hentries, List.map_append, hdrafts]
    rfl
  refine ⟨h.of_telling hr hstep hnext ?_ ?_ ?_ (fun w => .inl) ?_, p, ⟨sus, hr⟩, ?_, ?_, ?_,
    ?_, ?_, ?_, ?_, ?_⟩
  · rw [hunit]
    exact hpermits.2.symm
  · exact fun hend => by cases hend
  · rw [hunit]
    exact .commit h.sound ht hready hk hposts hbook
  · rw [hbook]
    exact h.reached.post hposts
  · rw [hpermits.2]
    simp
  · rwa [← t.readings_knowledge]
  · rw [hr.advance_eq, hstep]
    exact (Program.rows_settle _ _ _).trans hrows
  · rw [hr.advance_eq, hstep]
    exact ⟨_, (Program.entries_settle _ _ _).trans hentries, hdrafts⟩
  · exact fun id hid hrow => hready.cleared hposts hid hrow
  · intro j t' sus' w hj hr' hw id hid hmem
    have hstands' := (h.steady hr').stands w hw
    obtain ⟨a, ha⟩ := hstands'.row hid
    have hheld := hready.held hk hposts hmem ha
    have hwv := h.sound.exclusive w v id (hstands'.held hid) hheld
    exact hj (h.apart j i t' t sus' sus w hr' hr hw (hwv ▸ hunit))
  · rw [hr.advance_eq, hstep]
    rfl
  · refine ⟨v, ?_⟩
    rw [hr.advance_eq, hstep, hdone]
    rfl

theorem advance_waits (h : s.Orderly) (hr : s.Runs i t sus) {phase : Backend.Phase}
    {queue : List (UnitId × AccountId)} (hb : b.store = { s.store with waiting := queue })
    (hstep : sus.step now reading s.backend =
      ⟨none, .suspended ⟨sus.program, phase, sus.unit⟩, b⟩) :
    (s.advance i now reading).Orderly ∧ s.Idle (s.advance i now reading) := by
  have hst := h.steady hr
  have hspares : s.store.Spares b.store sus.unit := hb ▸ .waiting h.sound queue
  have hstands (v : UnitId) (hv : sus.unit = some v) : t.knowledge.Stands v b.store := by
    rw [hb]
    exact (hst.stands v hv).of_keeps_of_book_eq (.of_unit_eq id rfl) rfl
  have hk : (t.after ⟨none, .suspended ⟨sus.program, phase, sus.unit⟩, b⟩).knowledge =
      t.knowledge := by simp [Task.after, Task.knowledge]
  rw [hr.advance_eq, hstep]
  refine ⟨h.of_set hr rfl hspares ?_ ?_ ?_ ?_, ?_, ?_, rfl⟩
  · change b.store.book.Reached
    rw [hb]
    exact h.reached
  · refine Task.Steady.inOrder ⟨?_, ?_, ?_, fun v hv => ?_⟩ rfl
    · rw [hk]; exact hst.active
    · rw [hk]; exact hst.unit
    · rw [hk]; exact hst.runs
    · rw [hk]; exact hstands v hv
  · rintro sus' v hrun hv
    cases hrun
    exact .inl hv
  · rw [hk, hst.active]
    rfl
  · change b.store.rows = s.store.rows
    rw [hb]
  · change b.store.entries = s.store.entries
    rw [hb]

theorem of_drop (h : s.Orderly) (hr : s.Runs i t sus) {t' : Task} {outcome : Option Outcome}
    (hk : t'.knowledge = t.knowledge) (ht' : t'.status = .ended outcome) (hclosed : t'.Closed outcome) :
    Orderly { s with
      backend := s.backend.dropUnit sus.unit
      tasks := s.tasks.set i t' } := by
  refine h.of_set hr rfl (.dropUnit (.refl h.sound) fun v => .inl) ?_ ?_ ?_ ?_
  · change (s.backend.dropUnit sus.unit).store.book.Reached
    rw [Store.book_eq (Store.rows_dropUnit _ _) (Store.entries_dropUnit _ _)]
    exact h.reached
  · rw [Task.InOrder, ht']
    exact hclosed
  · rintro sus' v hrun hv
    rw [ht'] at hrun
    cases hrun
  · rw [hk, (h.steady hr).active]
    rfl

theorem advance_done (h : s.Orderly) (hr : s.Runs i t sus) {r : Except Failure Answer}
    (hprogram : sus.program = .done r)
    (hstep : sus.step now reading s.backend = ⟨none, .finished r, s.backend.dropUnit sus.unit⟩) :
    (s.advance i now reading).Orderly ∧ s.Idle (s.advance i now reading) := by
  have hruns := (h.steady hr).runs
  rw [hprogram] at hruns
  have hk : (t.after ⟨none, .finished r, s.backend.dropUnit sus.unit⟩).knowledge =
      t.knowledge := by simp [Task.after, Task.knowledge]
  rw [hr.advance_eq, hstep]
  refine ⟨h.of_drop hr hk rfl (.inl ⟨r, rfl, ?_⟩), Store.rows_dropUnit _ _,
    Store.entries_dropUnit _ _, rfl⟩
  rw [hk]
  exact hruns

theorem advance (h : s.Orderly) (i : Nat) (now : Duration) (reading : Instant) :
    (s.advance i now reading).Orderly ∧
      (s.Idle (s.advance i now reading) ∨ ∃ t p, s.Commits i t p (s.advance i now reading)) := by
  by_cases hr : ∃ t sus, s.Runs i t sus
  · obtain ⟨t, sus, hr⟩ := hr
    rcases sus.step_cases now reading s.backend with ⟨r, hprogram, hstep⟩ | ⟨next, hprogram, hstep⟩ |
      ⟨c, next, phase, b, hprogram, hattempt, hstep⟩ | ⟨c, next, r, b, hprogram, hattempt, hstep⟩
    · exact (h.advance_done hr hprogram hstep).imp_right .inl
    · exact (h.advance_clock hr hprogram hstep).imp_right .inl
    · obtain ⟨queue, hb⟩ := Backend.attempt_suspended hattempt
      exact (h.advance_waits hr hb hstep).imp_right .inl
    · have ht := Backend.attempt_replied hattempt
      cases hc : (Observation.replied c r).isCommit with
      | false => exact (h.advance_told hr hprogram ht hc hstep).imp_right .inl
      | true =>
        cases c with
        | commit v =>
          cases r with
          | ok a => exact (h.advance_commit hr hprogram ht hstep).imp_right fun hp => .inr ⟨t, hp⟩
          | error e => cases hc
        | _ => cases hc
  · rw [advance_of_not_runs hr]
    exact ⟨h, .inl ⟨rfl, rfl, rfl⟩⟩

theorem stop (h : s.Orderly) (i : Nat) {outcome : Task → Option Outcome}
    (ho : ∀ t a, outcome t ≠ some (.answered a)) :
    (s.stop i outcome).Orderly ∧ s.Idle (s.stop i outcome) := by
  unfold System.stop
  split
  · rename_i t ht
    split
    · rename_i sus hrun
      have hr : s.Runs i t sus := ⟨ht, hrun⟩
      exact ⟨h.of_drop hr rfl rfl (.inr ⟨(h.steady hr).active, ho t⟩), Store.rows_dropUnit _ _,
        Store.entries_dropUnit _ _, rfl⟩
    · exact ⟨h, rfl, rfl, rfl⟩
  · exact ⟨h, rfl, rfl, rfl⟩

theorem start (h : s.Orderly) (settings : Settings) (command : Command) :
    Orderly { s with tasks := s.tasks ++ [.begin settings command] } := by
  have hlt {j : Nat} {t : Task} (ht : s.tasks[j]? = some t) :
      (s.tasks ++ [Task.begin settings command])[j]? = some t := by
    rw [List.getElem?_append_left (List.getElem?_eq_some_iff.mp ht).1, ht]
  -- a task of the new system is an old one or the one that begins
  have hcases {j : Nat} {t : Task} (ht : (s.tasks ++ [Task.begin settings command])[j]? = some t) :
      s.tasks[j]? = some t ∨ t = .begin settings command := by
    rw [List.getElem?_append] at ht
    split at ht
    · exact .inl ht
    · exact .inr (List.mem_singleton.mp (List.mem_of_getElem? ht))
  have hbegin : (Task.begin settings command).Steady ⟨command.program settings, .fresh, none⟩
      s.store := ⟨rfl, rfl, command.runs_program settings, by simp⟩
  refine ⟨h.sound, h.reached, fun j t ht => ?_, fun i j t t' sus sus' u hi hj hu hu' => ?_, h.nodup,
    fun j => ?_⟩
  · rcases hcases ht with ht | rfl
    · exact h.tasks j t ht
    · exact hbegin.inOrder rfl
  · rcases hcases hi.task with ht | rfl
    · rcases hcases hj.task with ht' | rfl
      · exact h.apart i j t t' sus sus' u ⟨ht, hi.running⟩ ⟨ht', hj.running⟩ hu hu'
      · cases hj.running
        cases hu'
    · cases hi.running
      cases hu
  · rw [h.committed]
    constructor
    · rintro ⟨t, ht, hend⟩
      exact ⟨t, hlt ht, hend⟩
    · rintro ⟨t, ht, hend⟩
      rcases hcases ht with ht | rfl
      · exact ⟨t, ht, hend⟩
      · cases hend

theorem arm (h : s.Orderly) (faults : Faults) :
    Orderly { s with backend := { s.backend with faults } } :=
  ⟨h.sound, h.reached, h.tasks,
    fun i j t t' sus sus' u hi hj => h.apart i j t t' sus sus' u ⟨hi.task, hi.running⟩
      ⟨hj.task, hj.running⟩,
    h.nodup, h.committed⟩

/-- An action keeps a system in order; it is idle, or it is the commit of the task that advances. -/
theorem step (h : s.Orderly) (a : Action) :
    (s.step a).Orderly ∧
      (s.Idle (s.step a) ∨
        ∃ i now reading t p, a = .advance i now reading ∧ s.Commits i t p (s.step a)) := by
  cases a with
  | start settings command => exact ⟨h.start settings command, .inl ⟨rfl, rfl, rfl⟩⟩
  | advance i now reading =>
    obtain ⟨ho, hcases⟩ := h.advance i now reading
    exact ⟨ho, hcases.imp_right fun ⟨t, p, hp⟩ => ⟨i, now, reading, t, p, rfl, hp⟩⟩
  | timeOut i => exact (h.stop i (by simp [missed])).imp_right .inl
  | cancel i => exact (h.stop i (by simp)).imp_right .inl
  | arm faults => exact ⟨h.arm faults, .inl ⟨rfl, rfl, rfl⟩⟩

theorem run (actions : List Action) : (System.run empty actions).Orderly := by
  induction actions using List.reverseRecOn with
  | nil => exact orderly_empty
  | append_singleton actions a ih =>
    rw [run_concat]
    exact (ih.step a).1

end Orderly

end System

end Bookkeeping
