import Bookkeeping.Proofs.Atomicity

/-! # Lookups on a store without faults

Without faults a transaction is looked up truly. A task that has a unit of work has looked its
transaction up before, and nothing of it is on the accounts that the task had locked when it looked
again. Both stay so whatever other tasks do, hence up to the commit of the task.
-/
namespace Bookkeeping
open Bookkeeping.Time

/-! ## Stores without faults -/

namespace Backend

variable {b b' : Backend} {now : Duration} {c : Call} {phase phase' : Phase}

theorem enter_plain (hb : b.faults = {}) (c : Call) :
    b.enter c = match b.store.respond c with
      | .replied reply store => .replied reply { b with store }
      | .waits store => .suspended .entered { b with store } := by
  have hf : ¬b.faults.Fails c.operation := by simp [hb, Faults.Fails]
  exact if_neg hf

theorem attempt_plain (hb : b.faults = {}) (hphase : ∀ wake, phase ≠ .asleep wake) :
    b.attempt now c phase = b.enter c := by
  obtain ⟨store, faults⟩ := b
  cases hb
  cases phase with
  | fresh => cases c <;> rfl
  | asleep wake => exact absurd rfl (hphase wake)
  | entered => exact (enter_plain rfl c).symm

theorem replied_plain {r : c.Reply} (hb : b.faults = {}) (hphase : ∀ wake, phase ≠ .asleep wake)
    (h : b.attempt now c phase = .replied r b') : b.store.respond c = .replied r b'.store := by
  rw [attempt_plain hb hphase, enter_plain hb] at h
  cases hr : b.store.respond c with
  | replied r' s' =>
    rw [hr] at h
    cases h
    rfl
  | waits s' => rw [hr] at h; cases h

theorem suspended_plain (hb : b.faults = {}) (hphase : ∀ wake, phase ≠ .asleep wake)
    (h : b.attempt now c phase = .suspended phase' b') :
    phase' = .entered ∧ b.store.respond c = .waits b'.store := by
  rw [attempt_plain hb hphase, enter_plain hb] at h
  cases hr : b.store.respond c with
  | replied r' s' => rw [hr] at h; cases h
  | waits s' =>
    rw [hr] at h
    cases h
    exact ⟨rfl, rfl⟩

def Attempt.backend : Attempt c → Backend
  | .replied _ b | .suspended _ b => b

theorem faults_attempt (hb : b.faults = {}) (now : Duration) (c : Call) (phase : Phase) :
    (b.attempt now c phase).backend.faults = {} := by
  have henter : (b.enter c).backend.faults = {} := by
    rw [enter_plain hb]
    split <;> exact hb
  cases phase with
  | asleep wake =>
    rw [attempt, enterAt]
    split
    · exact henter
    · exact hb
  | fresh => rwa [attempt_plain hb (by simp)]
  | entered => rwa [attempt_plain hb (by simp)]

@[simp] theorem faults_dropUnit (b : Backend) (u : Option UnitId) :
    (b.dropUnit u).faults = b.faults := by
  cases u <;> rfl

end Backend

@[simp] theorem Program.faults_settle {α : Type} (p : Program α) (u : Option UnitId)
    (b : Backend) : (p.settle u b).2.faults = b.faults := by
  cases p with
  | done a => exact Backend.faults_dropUnit b u
  | call c next => rfl
  | clock next => rfl

/-! ## Lookups -/

namespace Knowledge

variable {k k' : Knowledge} {b : Book} {s : Store}

/-- A program that has a unit of work has looked its transaction up, and nothing of it is on the
accounts that were locked when it was not found. -/
structure Sought (k : Knowledge) (b : Book) : Prop where
  opened : k.unit ≠ none → k.searched = true
  cleared : ∀ id ∈ k.cleared, k.unit ≠ none ∧ id ∈ k.locked.map (·.1) ∧
    ∀ d ∈ b.stream id, k.transaction ≠ some d.transaction

inductive Follows (s : Store) (k : Knowledge) : Knowledge → Prop where
  | same : Follows s k k
  | read (t : Instant) : Follows s k (k.tell (.read t))
  | replied {c : Call} {r : c.Reply} {s' : Store} (permits : k.Permits c)
      (respond : s.respond c = .replied r s') : Follows s k (k.tell (.replied c r))

theorem sought_begin (command : Command) (b : Book) : (ofHistory command []).Sought b :=
  ⟨fun h => absurd rfl h, by simp⟩

theorem Sought.congr (h : k.Sought b) (ht : k'.transaction = k.transaction)
    (hs : k'.searched = k.searched) (hu : k'.unit = k.unit) (hl : k'.locked = k.locked)
    (hc : k'.cleared = k.cleared) : k'.Sought b := by
  refine ⟨?_, ?_⟩
  · rw [hs, hu]
    exact h.opened
  · rw [ht, hu, hl, hc]
    exact h.cleared

theorem Sought.findByTransaction {t : TransactionId} (h : k.Sought b)
    (r : (Call.findByTransaction t).Reply) :
    (k.tell (.replied (.findByTransaction t) r)).Sought b := by
  have hfound : { k with searched := true }.Sought b := ⟨fun _ => rfl, h.cleared⟩
  cases r with
  | ok es =>
    cases es with
    | nil => exact hfound
    | cons e rest => exact h.congr rfl rfl rfl rfl rfl
  | error e =>
    rw [tell]
    split
    · exact hfound
    · exact h

theorem Sought.findByTransactionIn {u : UnitId} {t : TransactionId} (h : k.Sought s.book)
    (hu : k.unit = some u) (ht : k.transaction = some t) :
    (k.tell (.replied (.findByTransactionIn u t)
      (.ok (s.entriesOfIn u t)))).Sought s.book := by
  cases he : s.entriesOfIn u t with
  | nil =>
    refine ⟨h.opened, fun id hid => ⟨by simp [tell, hu], hid, fun d hd hdt => ?_⟩⟩
    rw [Store.stream_book] at hd
    obtain ⟨e, hmem, rfl⟩ := List.mem_map.mp hd
    have hin : e ∈ s.entriesOfIn u t := by
      refine Store.mem_entriesOfIn.mpr ⟨List.mem_append_left _ (List.mem_filter.mp hmem).1, ?_⟩
      exact Option.some.inj (hdt.symm.trans ht)
    rw [he] at hin
    cases hin
  | cons e rest => exact h.congr rfl rfl rfl rfl rfl

theorem Sought.told {c : Call} {r : c.Reply} {s' : Store} (h : k.Sought s.book) (hp : k.Permits c)
    (hr : s.respond c = .replied r s') : (k.tell (.replied c r)).Sought s.book := by
  cases c with
  | openUnit =>
    cases hr
    exact ⟨fun _ => hp.2.2, fun id hid => absurd hid List.not_mem_nil⟩
  | lockAccount u id =>
    cases r with
    | ok a =>
      refine ⟨h.opened, ?_⟩
      intro other hother
      obtain ⟨hu, hl, hd⟩ := h.cleared other hother
      exact ⟨hu, List.mem_cons_of_mem _ hl, hd⟩
    | error e => exact h
  | findByTransaction t => exact h.findByTransaction r
  | findByTransactionIn u t =>
    cases hr
    exact h.findByTransactionIn hp.2.1 hp.2.2.1
  | findLastIn u id => cases r <;> exact h.congr rfl rfl rfl rfl rfl
  | append u drafts => cases r <;> exact h.congr rfl rfl rfl rfl rfl
  | upsertAccount u a => cases r <;> exact h.congr rfl rfl rfl rfl rfl
  | commit u => cases r <;> exact h.congr rfl rfl rfl rfl rfl
  | _ => exact h

theorem Sought.follows (h : k.Sought s.book) (hk : Follows s k k') : k'.Sought s.book := by
  cases hk with
  | same => exact h
  | read t => exact h.congr rfl rfl rfl rfl rfl
  | replied hp hr => exact h.told hp hr

theorem Follows.searched_eq (hk : Follows s k k')
    (hrecorded : ∃ e ∈ s.entries, k.transaction = some e.transaction) :
    k'.searched = k.searched := by
  cases hk with
  | same => rfl
  | read t => rfl
  | @replied c r s' hp hr =>
    cases c with
    | openUnit => cases r <;> rfl
    | lockAccount u id => cases r <;> rfl
    | findByTransaction t =>
      obtain ⟨e, he, ht⟩ := hrecorded
      have hmem : e ∈ entriesOf t s.entries :=
        mem_entriesOf.mpr ⟨he, Option.some.inj (ht.symm.trans hp.2)⟩
      cases hr
      cases hes : entriesOf t s.entries with
      | nil =>
        rw [hes] at hmem
        cases hmem
      | cons e rest => rfl
    | findByTransactionIn u t =>
      cases r with
      | ok es => cases es <;> rfl
      | error e => rw [tell]; split <;> rfl
    | findLastIn u id => cases r <;> rfl
    | append u drafts => cases r <;> rfl
    | upsertAccount u a => cases r <;> rfl
    | commit u => cases r <;> rfl
    | _ => rfl

end Knowledge

theorem Task.transaction_knowledge (t : Task) :
    t.knowledge.transaction = t.command.transaction? := by
  unfold knowledge
  induction t.history using List.reverseRecOn with
  | nil => rfl
  | append_singleton history o ih =>
    rw [Knowledge.ofHistory_concat, Knowledge.transaction_tell, ih]

namespace System

variable {s : System} {i j : Nat} {t t' : Task} {sus sus' : Suspended (Except Failure Answer)}
  {now : Duration} {reading : Instant} {x : TransactionId}

def Action.arms : Action → Bool
  | .arm _ => true
  | _ => false

theorem faults_advance (h : s.backend.faults = {}) (i : Nat) (now : Duration) (reading : Instant) :
    (s.advance i now reading).backend.faults = {} := by
  by_cases hr : ∃ t sus, s.Runs i t sus
  · obtain ⟨t, sus, hr⟩ := hr
    rw [hr.advance_eq]
    rcases sus.step_cases now reading s.backend with ⟨r, hprogram, hstep⟩ |
      ⟨next, hprogram, hstep⟩ | ⟨c, next, phase, b, hprogram, hattempt, hstep⟩ |
      ⟨c, next, r, b, hprogram, hattempt, hstep⟩
    all_goals rw [hstep]
    · exact (Backend.faults_dropUnit _ _).trans h
    · exact (Program.faults_settle _ _ _).trans h
    · have hfaults := Backend.faults_attempt h now c sus.phase
      rwa [hattempt] at hfaults
    · have hfaults := Backend.faults_attempt h now c sus.phase
      rw [hattempt] at hfaults
      exact (Program.faults_settle _ _ _).trans hfaults
  · rw [advance_of_not_runs hr]
    exact h

theorem faults_stop (h : s.backend.faults = {}) (i : Nat) (outcome : Task → Option Outcome) :
    (s.stop i outcome).backend.faults = {} := by
  unfold System.stop
  split
  · split
    · exact (Backend.faults_dropUnit _ _).trans h
    · exact h
  · exact h

theorem faults_step (h : s.backend.faults = {}) {a : Action} (ha : a.arms = false) :
    (s.step a).backend.faults = {} := by
  cases a with
  | start settings command => exact h
  | advance i now reading => exact faults_advance h i now reading
  | timeOut i => exact faults_stop h i _
  | cancel i => exact faults_stop h i _
  | arm faults => cases ha

/-- A system without faults, in which no task sleeps and what has been looked up still holds. -/
structure Plain (s : System) : Prop where
  faults : s.backend.faults = {}
  awake : ∀ i t sus, s.Runs i t sus → ∀ wake, sus.phase ≠ .asleep wake
  sought : ∀ i t sus, s.Runs i t sus → t.knowledge.Sought s.store.book

theorem plain_empty : Plain empty where
  faults := rfl
  awake _ _ _ h := by simpa [empty] using h.task
  sought _ _ _ h := by simpa [empty] using h.task

namespace Plain

theorem follows (h : s.Plain) (ho : s.Orderly) (hr : s.Runs i t sus)
    (hrunning : (t.after (sus.step now reading s.backend)).status = .running sus') :
    (∀ wake, sus'.phase ≠ .asleep wake) ∧
      t.knowledge.Follows s.store (t.after (sus.step now reading s.backend)).knowledge := by
  have hawake := h.awake i t sus hr
  rcases sus.step_cases now reading s.backend with ⟨r, hprogram, hstep⟩ | ⟨next, hprogram, hstep⟩ |
    ⟨c, next, phase, b, hprogram, hattempt, hstep⟩ | ⟨c, next, r, b, hprogram, hattempt, hstep⟩
  all_goals rw [hstep] at hrunning ⊢
  · cases hrunning
  · rw [Task.running_after_telling hrunning, Task.knowledge_after_telling]
    exact ⟨fun wake => by simp, .read reading⟩
  · cases hrunning
    have hphase := (Backend.suspended_plain h.faults hawake hattempt).1
    have hk : (t.after ⟨none, .suspended ⟨sus.program, phase, sus.unit⟩, b⟩).knowledge =
        t.knowledge := by simp [Task.after, Task.knowledge]
    rw [hk]
    exact ⟨fun wake => by simp [hphase], .same⟩
  · have hruns := (ho.steady hr).runs
    rw [hprogram] at hruns
    rw [Task.running_after_telling hrunning, Task.knowledge_after_telling]
    exact ⟨fun wake => by simp, .replied hruns.1 (Backend.replied_plain h.faults hawake hattempt)⟩

/-- What a task has found is not undone by a commit of another. -/
theorem sought_other (h : s.Plain) (ho : s.Orderly) {a : Action} (hr : s.Runs j t' sus')
    (hr' : (s.step a).Runs j t' sus') : t'.knowledge.Sought (s.step a).store.book := by
  have hsought := h.sought j t' sus' hr
  rcases (ho.step a).2 with hidle | ⟨i, now, reading, t, p, -, hc⟩
  · rwa [hidle.book]
  · refine ⟨hsought.opened, ?_⟩
    intro id hid
    obtain ⟨hu, hl, hd⟩ := hsought.cleared id hid
    obtain ⟨u, hu'⟩ := Option.ne_none_iff_exists'.mp hu
    have hne : j ≠ i := by
      rintro rfl
      exact hc.not_runs hr'
    have hother := hc.apart j t' sus' u hne hr ((ho.steady hr).unit.trans hu') id hl
    rw [hc.book, hc.posts.stream_of_not_mem hother]
    exact ⟨hu, hl, hd⟩

theorem sought_self (h : s.Plain) (ho : s.Orderly) (hr : s.Runs i t sus)
    (hr' : (s.advance i now reading).Runs i (t.after (sus.step now reading s.backend)) sus') :
    (t.after (sus.step now reading s.backend)).knowledge.Sought
      (s.advance i now reading).store.book := by
  rcases (ho.advance i now reading).2 with hidle | ⟨t₀, p, hc⟩
  · rw [hidle.book]
    exact (h.sought i t sus hr).follows (h.follows ho hr hr'.running).2
  · exact absurd hr' hc.not_runs

theorem step (h : s.Plain) (ho : s.Orderly) {a : Action} (ha : a.arms = false) :
    (s.step a).Plain := by
  refine ⟨faults_step h.faults ha, fun j t' sus' hr' => ?_, fun j t' sus' hr' => ?_⟩
  · rcases hr'.of_step with hr | ⟨settings, command, rfl⟩ | ⟨now, reading, t, sus, rfl, hr, rfl⟩
    · exact h.awake j t' sus' hr
    · cases hr'.running
      exact nofun
    · exact (h.follows ho hr hr'.running).1
  · rcases hr'.of_step with hr | ⟨settings, command, rfl⟩ | ⟨now, reading, t, sus, rfl, hr, rfl⟩
    · exact h.sought_other ho hr hr'
    · exact Knowledge.sought_begin command _
    · exact h.sought_self ho hr hr'

theorem run {actions : List Action} (h : ∀ a ∈ actions, a.arms = false) :
    (System.run empty actions).Plain := by
  induction actions using List.reverseRecOn with
  | nil => exact plain_empty
  | append_singleton actions a ih =>
    rw [run_concat]
    have hbefore := ih fun b hb => h b (List.mem_append_left _ hb)
    exact hbefore.step (Orderly.run actions) (h a (by simp))

/-- Nothing of the transaction of a task is on its accounts when it commits. -/
theorem unrecorded (h : s.Plain) (ho : s.Orderly) {p : Posting} {s' : System}
    (hc : s.Commits i t p s') {id : AccountId} (hid : id ∈ t.command.accounts) {d : Draft}
    (hd : d ∈ s.store.book.stream id) : t.command.transaction? ≠ some d.transaction := by
  obtain ⟨sus, hr⟩ := hc.runs
  have hrow : s.store.book.row id ≠ none := by
    intro hnone
    rw [(ho.reached.kept.backed id).mp hnone] at hd
    cases hd
  rw [← t.transaction_knowledge]
  exact ((h.sought i t sus hr).cleared id (hc.cleared id hid hrow)).2.2 d hd

end Plain

end System

end Bookkeeping
