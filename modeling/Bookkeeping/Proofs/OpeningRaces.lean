import Bookkeeping.Proofs.Lookups
import Bookkeeping.Proofs.Openings
import Bookkeeping.Proofs.Tasks

/-! # Races to open an account

Openings of one account may all pass their checks before any of them commits. On a store without faults
one of them succeeds all the same and the others are told that the account exists, provided that their
times are fresh, that nobody else uses their transactions and that nobody stops them. The reasons: an
opening ends after eight steps, it fails only if it was shown that the account exists, and an account
exists by the commit of one opening.
-/
namespace Bookkeeping
open Bookkeeping.Time

namespace Command

variable {command : Command} {settings : Settings} {readings : List Instant} {b : Book} {p : Posting}
  {id : AccountId}

def Opens (id : AccountId) : Command → Prop
  | .create _ x _ => x = id
  | _ => False

instance (id : AccountId) : (command : Command) → Decidable (command.Opens id)
  | .create _ x _ => inferInstanceAs (Decidable (x = id))
  | .transfer .. | .get _ => inferInstanceAs (Decidable False)

def request? : Command → Option Request
  | .create request .. | .transfer request .. => some request
  | .get _ => none

theorem Opens.exists_eq (h : command.Opens id) :
    ∃ request initial, command = .create request id initial := by
  cases command with
  | create request x initial =>
    cases h
    exact ⟨request, initial, rfl⟩
  | _ => cases h

theorem Opens.transaction_ne_none (h : command.Opens id) : command.transaction? ≠ none := by
  obtain ⟨request, initial, rfl⟩ := h.exists_eq
  exact Option.some_ne_none _

theorem Opens.mem_accounts (h : command.Opens id) : id ∈ command.accounts := by
  obtain ⟨request, initial, rfl⟩ := h.exists_eq
  exact List.mem_singleton_self id

/-- A posting opens an account that did not exist, or it opens none and leaves the time at which the
account was opened. -/
theorem Posts.opens_or_keeps (h : command.Posts settings readings b p) (id : AccountId) :
    (∃ request initial now, command = .create request id initial ∧
      p = .opening settings request id initial now ∧ b.row id = none ∧ b.stream id = []) ∨
    (¬command.Opens id ∧
      ((b.post p).row id).map (·.createdAt) = (b.row id).map (·.createdAt)) := by
  by_cases hid : id ∈ command.accounts
  · cases h with
    | @opening request x initial now _ _ hrow hstream =>
      rw [accounts, List.mem_singleton] at hid
      subst hid
      exact .inl ⟨request, initial, now, rfl, rfl, hrow, hstream⟩
    | movement _ _ hs hd hdebit hcredit =>
      have hds := (Account.debit_id hdebit).trans (Book.row_id hs)
      have hcd := (Account.credit_id hcredit).trans (Book.row_id hd)
      refine .inr ⟨fun ho => ho, ?_⟩
      rw [Book.row_post_movement _ _ _ _ hds hcd]
      split
      · rename_i he
        rw [← he, hd, Option.map_some, Option.map_some, Account.credit_createdAt hcredit]
      · split
        · rename_i he
          rw [← he, hs, Option.map_some, Option.map_some, Account.debit_createdAt hdebit]
        · rfl
  · exact .inr ⟨fun ho => hid ho.mem_accounts, by rw [h.row_of_not_mem hid]⟩

end Command

namespace System

variable {s : System} {i w : Nat} {t : Task} {a : Action} {id : AccountId}

/-! ## The task that opened an account -/

/-- A task opened the account: its events begin the stream, the row has its time, and no other opening
of the account has committed. -/
structure Founds (s : System) (id : AccountId) (w : Nat) : Prop where
  ended : ∃ t request initial now, s.tasks[w]? = some t ∧ t.command = .create request id initial ∧
    t.status = .ended (some (.answered (.account (.opened id initial now)))) ∧
    request.openingDrafts t.settings id initial <+: s.store.book.stream id ∧
    (s.store.book.row id).map (·.createdAt) = some now
  only : ∀ i ∈ s.commits, ∀ t, s.tasks[i]? = some t → t.command.Opens id → i = w

structure Vacant (s : System) (id : AccountId) : Prop where
  row : s.store.book.row id = none
  unopened : ∀ i ∈ s.commits, ∀ t, s.tasks[i]? = some t → ¬t.command.Opens id

theorem Orderly.committed_of_step (h : s.Orderly) (hi : i ∈ (s.step a).commits)
    (ht : (s.step a).tasks[i]? = some t) :
    (i ∈ s.commits ∧ s.tasks[i]? = some t) ∨
      ∃ t₀ p, s.Commits i t₀ p (s.step a) ∧ t.command = t₀.command := by
  have hold (hi : i ∈ s.commits) : i ∈ s.commits ∧ s.tasks[i]? = some t :=
    ⟨hi, (h.committed_step hi a).symm.trans ht⟩
  rcases (h.step a).2 with hidle | ⟨j, now, reading, t₀, p, -, hc⟩
  · exact .inl (hold (hidle.commits ▸ hi))
  · rw [hc.commits, List.mem_append, List.mem_singleton] at hi
    rcases hi with hi | rfl
    · exact .inl (hold hi)
    · obtain ⟨t₁, ht₁, -, hcommand, -⟩ := hc.exists_task
      rw [ht] at ht₁
      cases ht₁
      exact .inr ⟨t₀, p, hc, hcommand⟩

theorem Orderly.account_step (h : s.Orderly) (a : Action) (hrow : s.store.book.row id ≠ none) :
    s.store.book.stream id <+: (s.step a).store.book.stream id ∧
      ((s.step a).store.book.row id).map (·.createdAt) =
        (s.store.book.row id).map (·.createdAt) := by
  rcases (h.step a).2 with hidle | ⟨i, now, reading, t, p, -, hc⟩
  · rw [hidle.book]
    exact ⟨List.prefix_refl _, rfl⟩
  · rw [hc.book, Book.stream_post]
    refine ⟨List.prefix_append _ _, ?_⟩
    rcases hc.posts.opens_or_keeps id with ⟨_, _, _, -, -, hnone, -⟩ | ⟨-, hkeeps⟩
    · exact absurd hnone hrow
    · exact hkeeps

theorem Orderly.row_step (h : s.Orderly) (a : Action) (hrow : s.store.book.row id ≠ none) :
    (s.step a).store.book.row id ≠ none := by
  intro hnone
  have hkeeps := (h.account_step a hrow).2
  rw [hnone] at hkeeps
  exact hrow (Option.map_eq_none_iff.mp hkeeps.symm)

theorem Founds.row (h : s.Founds id w) : s.store.book.row id ≠ none := by
  obtain ⟨_, _, _, now, -, -, -, -, hrow⟩ := h.ended
  intro hnone
  rw [hnone] at hrow
  cases hrow

theorem Founds.step (h : s.Founds id w) (ho : s.Orderly) (a : Action) : (s.step a).Founds id w := by
  obtain ⟨t, request, initial, now, ht, hcommand, hstatus, hstream, hcreated⟩ := h.ended
  obtain ⟨hbegins, hkeeps⟩ := ho.account_step a h.row
  refine ⟨⟨t, request, initial, now, ended_step ht hstatus a, hcommand, hstatus,
    hstream.trans hbegins, hkeeps.trans hcreated⟩, ?_⟩
  intro i hi t' ht' hopens
  rcases ho.committed_of_step hi ht' with ⟨hi, ht'⟩ | ⟨t₀, p, hc, hcommand'⟩
  · exact h.only i hi t' ht' hopens
  · rcases hc.posts.opens_or_keeps id with ⟨_, _, _, -, -, hnone, -⟩ | ⟨hnot, -⟩
    · exact absurd hnone h.row
    · exact absurd (hcommand' ▸ hopens) hnot

theorem Vacant.step (h : s.Vacant id) (ho : s.Orderly) (a : Action) :
    (s.step a).Vacant id ∨ ∃ w, (s.step a).Founds id w := by
  -- an opening that has committed after the action is the one that the action commits
  have hnew {j : Nat} {t' : Task} (hj : j ∈ (s.step a).commits)
      (ht' : (s.step a).tasks[j]? = some t') (hopens : t'.command.Opens id) :
      ∃ t₀ p, s.Commits j t₀ p (s.step a) ∧ t₀.command.Opens id := by
    rcases ho.committed_of_step hj ht' with ⟨hj, ht'⟩ | ⟨t₀, p, hc, hcommand⟩
    · exact absurd hopens (h.unopened j hj t' ht')
    · exact ⟨t₀, p, hc, hcommand ▸ hopens⟩
  rcases (ho.step a).2 with hidle | ⟨i, now, reading, t, p, -, hc⟩
  · refine .inl ⟨hidle.book ▸ h.row, fun j hj t' ht' hopens => ?_⟩
    obtain ⟨t₀, p, hc, -⟩ := hnew hj ht' hopens
    have hcommits := hidle.commits.symm.trans hc.commits
    simp at hcommits
  · have hsame {j : Nat} {t₀ : Task} {p' : Posting} (hc' : s.Commits j t₀ p' (s.step a)) : j = i := by
      have hcommits := hc'.commits.symm.trans hc.commits
      simpa using hcommits
    rcases hc.posts.opens_or_keeps id with ⟨request, initial, now, hcommand, rfl, hrow, hstream⟩ |
      ⟨hnot, hkeeps⟩
    · obtain ⟨t₁, ht₁, hstatus, hcommand₁, hsettings, -⟩ := hc.exists_task
      refine .inr ⟨i, ⟨t₁, request, initial, now, ht₁, hcommand₁.trans hcommand, hstatus, ?_, ?_⟩, ?_⟩
      · rw [hc.book, Book.stream_post_opening, if_pos rfl, hstream, hsettings]
        exact List.prefix_refl _
      · rw [hc.book, Book.row_post_opening, if_pos rfl]
        rfl
      · intro j hj t' ht' hopens
        obtain ⟨t₀, p, hc', -⟩ := hnew hj ht' hopens
        exact hsame hc'
    · refine .inl ⟨?_, fun j hj t' ht' hopens => ?_⟩
      · rw [h.row] at hkeeps
        rw [hc.book]
        exact Option.map_eq_none_iff.mp hkeeps
      · obtain ⟨t₀, p', hc', hopens⟩ := hnew hj ht' hopens
        obtain rfl := hsame hc'
        obtain ⟨sus, hr⟩ := hc.runs
        obtain ⟨sus', hr'⟩ := hc'.runs
        rw [(hr'.unique hr).1] at hopens
        exact hnot hopens

theorem vacant_or_founds (actions : List Action) (id : AccountId) :
    (run empty actions).Vacant id ∨ ∃ w, (run empty actions).Founds id w := by
  induction actions using List.reverseRecOn with
  | nil => exact .inl ⟨rfl, by simp [empty]⟩
  | append_singleton actions a ih =>
    rw [run_concat]
    have ho := Orderly.run actions
    rcases ih with h | ⟨w, h⟩
    · exact h.step ho a
    · exact .inr ⟨w, h.step ho a⟩

end System

/-! ## One opening among others -/

namespace Task

variable {t : Task} {request : Request} {id : AccountId} {initial : Amount}

/-- An opening keeps to its course and has ended as it should or is on the way. -/
def OnCourse (t : Task) (request : Request) (id : AccountId) (initial : Amount) : Prop :=
  match t.status with
  | .running sus =>
    sus.phase = .fresh ∧ (∀ r, sus.program ≠ .done r) ∧
      sus.program.Obeys (.opening t.settings request id initial)
        (Command.EndsOpening id initial) t.history
  | .ended outcome =>
    ∃ r, outcome = some (.ofResult r) ∧ Command.EndsOpening id initial t.history r

theorem onCourse_begin (settings : Settings) (request : Request) (id : AccountId)
    (initial : Amount) : (begin settings (.create request id initial)).OnCourse request id initial := by
  refine ⟨rfl, fun r hr => ?_, Command.opening_program settings request id initial⟩
  obtain ⟨next, hnext⟩ : ∃ next, Command.program settings (.create request id initial) = .clock next :=
    ⟨_, rfl⟩
  cases hnext.symm.trans hr

theorem onCourse_after_telling {b : Backend} {o : Observation} {u : Option UnitId}
    {p : Program (Except Failure Answer)}
    (hp : p.Obeys (.opening t.settings request id initial) (Command.EndsOpening id initial)
      (t.history ++ [o])) : (t.after (.telling o u b p)).OnCourse request id initial := by
  cases p with
  | done r => exact ⟨r, rfl, hp⟩
  | call c next => exact ⟨rfl, fun r => by simp, hp⟩
  | clock next => exact ⟨rfl, fun r => by simp, hp⟩

end Task

/-- An opening asks for no lock, so that nothing keeps it waiting. -/
theorem Request.not_openingCall_lock {settings : Settings} {request : Request} {id : AccountId}
    {initial : Amount} {h : List Observation} {u : UnitId} {x : AccountId} :
    ¬request.OpeningCall settings id initial h (.lockAccount u x) :=
  fun hcall => hcall

namespace System

variable {s : System} {i : Nat} {t : Task} {sus : Suspended (Except Failure Answer)}
  {now : Duration} {reading : Instant} {request : Request} {id : AccountId} {initial : Amount}

theorem Orderly.onCourse_advance (ho : s.Orderly) (hr : s.Runs i t sus)
    (hfaults : s.backend.faults = {}) (hcommand : t.command = .create request id initial)
    (h : t.OnCourse request id initial)
    (hunused : ∀ e ∈ s.store.entries, e.transaction ≠ request.transaction)
    (hfresh : ∀ read ∈ (t.after (sus.step now reading s.backend)).readings,
      Workflow.Fresh t.settings request read) :
    ∃ o, (t.after (sus.step now reading s.backend)).history = t.history ++ [o] ∧
      (t.after (sus.step now reading s.backend)).OnCourse request id initial ∧
      (o.showsExisting = true → s.store.book.row id ≠ none) := by
  rw [Task.OnCourse, hr.running] at h
  obtain ⟨hphase, hdone, hobeys⟩ := h
  have hawake (wake : Duration) : sus.phase ≠ .asleep wake := by simp [hphase]
  rcases sus.step_cases now reading s.backend with ⟨r, hprogram, -⟩ | ⟨next, hprogram, hstep⟩ |
    ⟨c, next, phase, b, hprogram, hattempt, -⟩ | ⟨c, next, r, b, hprogram, hattempt, hstep⟩
  · exact absurd hprogram (hdone r)
  · rw [hprogram] at hobeys
    rw [hstep] at hfresh ⊢
    have hread : Workflow.Fresh t.settings request reading := by
      apply hfresh
      simp [Task.readings, Task.after, Move.telling]
    exact ⟨.read reading, rfl, Task.onCourse_after_telling (hobeys.2 reading hread),
      fun hs => by cases hs⟩
  · rw [hprogram] at hobeys
    obtain ⟨u, x, rfl, -⟩ := Store.respond_waits (Backend.suspended_plain hfaults hawake hattempt).2
    exact absurd hobeys.2.1 Request.not_openingCall_lock
  · have hst := ho.steady hr
    have hruns := hst.runs
    rw [hprogram] at hobeys hruns
    have hpermits := hruns.1
    have hstands (u : UnitId) (hu : t.knowledge.unit = some u) : t.knowledge.Stands u s.store :=
      hst.stands u (hst.unit.trans hu)
    rw [Task.knowledge, hcommand] at hpermits hstands
    obtain ⟨hexpected, hshown⟩ := Store.expected_of_respond ho.reached.kept hunused hpermits hstands
      hobeys.2.1 (Backend.replied_plain hfaults hawake hattempt)
    rw [hstep]
    exact ⟨.replied c r, rfl, Task.onCourse_after_telling (hobeys.2.2 r hexpected), hshown⟩

/-! ## The race -/

def Action.advances (i : Nat) : Action → Bool
  | .advance j .. => j = i
  | _ => false

theorem exists_of_advances {a : Action} (h : a.advances i = true) :
    ∃ now reading, a = .advance i now reading := by
  cases a with
  | advance j now reading =>
    cases of_decide_eq_true h
    exact ⟨now, reading, rfl⟩
  | _ => cases h

def Action.stops (i : Nat) : Action → Bool
  | .timeOut j | .cancel j => j = i
  | _ => false

/-- A task that opens an account and has begun after some moment of a run. -/
structure Entrant (before after : List Action) (id : AccountId) (i : Nat) (t : Task) : Prop where
  since : (run empty before).tasks.length ≤ i
  task : (run empty (before ++ after)).tasks[i]? = some t
  opens : t.command.Opens id

/-- From a moment on at which an account does not exist and no older opening of it is under way,
openings of the account race. The store is without faults, nobody else uses their transactions, their
times are fresh, and nobody stops them. Other tasks may go on or begin beside them. -/
structure Contest (before after : List Action) (id : AccountId) : Prop where
  absent : findRow id (run empty before).store.rows = none
  ceased : ∀ i t sus, (run empty before).Runs i t sus → ¬t.command.Opens id
  healed : (run empty before).backend.faults = {}
  plain : ∀ a ∈ after, a.arms = false
  distinct : ∀ i t, Entrant before after id i t → ∀ j t',
    (run empty (before ++ after)).tasks[j]? = some t' →
    t'.command.transaction? = t.command.transaction? → j = i
  fresh : ∀ i t, Entrant before after id i t → ∀ request ∈ t.command.request?,
    ∀ now ∈ t.readings, Workflow.Fresh t.settings request now
  undisturbed : ∀ i t, Entrant before after id i t → ∀ a ∈ after, a.stops i = false

/-- A task makes eight steps after its beginning, if it does not end before. -/
def Served (before after : List Action) (i : Nat) : Prop :=
  ∃ begun rest, after = begun ++ rest ∧ i < (run empty (before ++ begun)).tasks.length ∧
    8 ≤ rest.countP (·.advances i)

section

variable {before after begun rest : List Action} {a : Action}

theorem run_append_concat (before after : List Action) (a : Action) :
    run empty (before ++ (after ++ [a])) = (run empty (before ++ after)).step a := by
  rw [← List.append_assoc, run_concat]

theorem Entrant.concat (he : Entrant before after id i t) (a : Action) :
    ∃ t', Entrant before (after ++ [a]) id i t' ∧ t.Continues t' := by
  obtain ⟨t', ht', hc⟩ := exists_continues_step he.task a
  refine ⟨t', ⟨he.since, ?_, hc.command ▸ he.opens⟩, hc⟩
  rwa [run_append_concat]

namespace Contest

theorem init (h : Contest before (after ++ [a]) id) : Contest before after id := by
  refine ⟨h.absent, h.ceased, h.healed, fun b hb => h.plain b (List.mem_append_left _ hb), ?_, ?_, ?_⟩
  · intro i t he j t' ht' htx
    obtain ⟨t₁, he₁, hc₁⟩ := he.concat a
    obtain ⟨t₂, ht₂, hc₂⟩ := exists_continues_step ht' a
    rw [← run_append_concat] at ht₂
    apply h.distinct i t₁ he₁ j t₂ ht₂
    rw [hc₁.command, hc₂.command, htx]
  · intro i t he request hrequest now hnow
    obtain ⟨t₁, he₁, hc⟩ := he.concat a
    rw [← hc.settings]
    exact h.fresh i t₁ he₁ request (hc.command ▸ hrequest) now (hc.readings hnow)
  · intro i t he b hb
    obtain ⟨t₁, he₁, -⟩ := he.concat a
    exact h.undisturbed i t₁ he₁ b (List.mem_append_left _ hb)

theorem faults (h : Contest before after id) :
    (run empty (before ++ after)).backend.faults = {} := by
  induction after using List.reverseRecOn with
  | nil =>
    rw [List.append_nil]
    exact h.healed
  | append_singleton after a ih =>
    rw [run_append_concat]
    exact faults_step (ih h.init) (h.plain a (by simp))

theorem unused (h : Contest before after id) (he : Entrant before after id i t)
    (hr : (run empty (before ++ after)).Runs i t sus)
    (hcommand : t.command = .create request id initial) :
    ∀ e ∈ (run empty (before ++ after)).store.entries, e.transaction ≠ request.transaction := by
  intro e hmem htx
  obtain ⟨j, hj, t', ht', hauthor⟩ := exists_author (before ++ after) (List.mem_map_of_mem hmem)
  have hsame : t'.command.transaction? = t.command.transaction? := by
    rw [hauthor, hcommand]
    exact congrArg some htx
  obtain rfl := h.distinct i t he j t' ht' hsame
  exact (Orderly.run (before ++ after)).not_mem_commits hr hj

theorem advance (h : Contest before (after ++ [.advance i now reading]) id)
    (he : Entrant before after id i t) (hr : (run empty (before ++ after)).Runs i t sus)
    (hcommand : t.command = .create request id initial) (hon : t.OnCourse request id initial) :
    ∃ o t', (run empty (before ++ (after ++ [.advance i now reading]))).tasks[i]? = some t' ∧
      t'.history = t.history ++ [o] ∧ t'.OnCourse request id initial ∧
      (o.showsExisting = true → (run empty (before ++ after)).store.book.row id ≠ none) := by
  have htask : (run empty (before ++ (after ++ [.advance i now reading]))).tasks[i]? =
      some (t.after (sus.step now reading (run empty (before ++ after)).backend)) := by
    rw [run_append_concat]
    exact hr.advance_task now reading
  have hfresh := h.fresh i _ ⟨he.since, htask, he.opens⟩ request (by
    change request ∈ t.command.request?
    rw [hcommand]
    rfl)
  obtain ⟨o, hhistory, hon', hshown⟩ := (Orderly.run (before ++ after)).onCourse_advance hr
    h.init.faults hcommand hon (h.init.unused he hr hcommand) hfresh
  exact ⟨o, _, htask, hhistory, hon', hshown⟩

/-- Each opening in a race keeps to its course, and what it was shown is so. -/
theorem onCourse (h : Contest before after id) (he : Entrant before after id i t)
    (hcommand : t.command = .create request id initial) :
    t.OnCourse request id initial ∧ ∀ o ∈ t.history, o.showsExisting = true →
      (run empty (before ++ after)).store.book.row id ≠ none := by
  induction after using List.reverseRecOn generalizing t with
  | nil =>
    have htask := he.task
    rw [List.append_nil] at htask
    have hlt := (List.getElem?_eq_some_iff.mp htask).1
    have hsince := he.since
    omega
  | append_singleton after a ih =>
    have ho := Orderly.run (before ++ after)
    have htask := he.task
    rw [run_append_concat] at htask
    have hrow : (run empty (before ++ after)).store.book.row id ≠ none →
        (run empty (before ++ (after ++ [a]))).store.book.row id ≠ none := by
      rw [run_append_concat]
      exact ho.row_step a
    -- the task was there before, has begun, has made the step, or was stopped, which nobody does
    rcases task_of_step htask with hold | ⟨settings, command, -, rfl⟩ |
      ⟨now, reading, t₀, sus, rfl, hr, rfl⟩ | ⟨t₀, sus, outcome, hstops, hr, rfl⟩
    · obtain ⟨hon, hshown⟩ := ih h.init ⟨he.since, hold, he.opens⟩ hcommand
      exact ⟨hon, fun o ho hs => hrow (hshown o ho hs)⟩
    · have hcommand : command = .create request id initial := hcommand
      subst hcommand
      exact ⟨Task.onCourse_begin settings request id initial, fun o ho => absurd ho List.not_mem_nil⟩
    · have he₀ : Entrant before after id i t₀ := ⟨he.since, hr.task, he.opens⟩
      obtain ⟨hon, hshown⟩ := ih h.init he₀ hcommand
      obtain ⟨o, t', ht', hhistory, hon', hnew⟩ := h.advance he₀ hr hcommand hon
      cases he.task.symm.trans ht'
      refine ⟨hon', fun o' ho' hs => hrow ?_⟩
      rw [hhistory, List.mem_append, List.mem_singleton] at ho'
      rcases ho' with ho' | rfl
      · exact hshown o' ho' hs
      · exact hnew hs
    · have hstopped := h.undisturbed i _ he a (by simp)
      rcases hstops with rfl | rfl <;> simp [Action.stops] at hstopped

/-- An opening that is still running was told something at each of its steps. -/
theorem countP_le_of_running (h : Contest before (begun ++ rest) id)
    (he : Entrant before (begun ++ rest) id i t)
    (hi : i < (run empty (before ++ begun)).tasks.length) (hstatus : t.status = .running sus) :
    rest.countP (·.advances i) ≤ t.history.length := by
  induction rest using List.reverseRecOn generalizing t sus with
  | nil => exact Nat.zero_le _
  | append_singleton rest a ih =>
    rw [← List.append_assoc] at h he
    obtain ⟨t₀, ht₀, -⟩ := exists_continues (List.getElem?_eq_getElem hi) rest
    rw [← run_append, List.append_assoc] at ht₀
    obtain ⟨t₁, ht₁, hc⟩ := exists_continues_step ht₀ a
    rw [← run_append_concat] at ht₁
    cases he.task.symm.trans ht₁
    have he₀ : Entrant before (begun ++ rest) id i t₀ := ⟨he.since, ht₀, hc.command ▸ he.opens⟩
    cases hstatus₀ : t₀.status with
    | ended outcome =>
      have hsame := ended_step ht₀ hstatus₀ a
      rw [← run_append_concat, he.task] at hsame
      cases hsame
      cases hstatus.symm.trans hstatus₀
    | running sus₀ =>
      have hle := ih h.init he₀ hstatus₀
      rw [List.countP_append, List.countP_singleton]
      -- its own step makes the history longer by one, any other does not make it shorter
      split
      · rename_i hadvances
        obtain ⟨now, reading, rfl⟩ := exists_of_advances hadvances
        obtain ⟨request, initial, hcommand⟩ := he₀.opens.exists_eq
        obtain ⟨o, t', ht', hhistory, -⟩ := h.advance he₀ ⟨ht₀, hstatus₀⟩ hcommand
          (h.init.onCourse he₀ hcommand).1
        cases he.task.symm.trans ht'
        rw [hhistory, List.length_append, List.length_singleton]
        omega
      · have hlength := hc.history.length_le
        omega

theorem ended (h : Contest before after id) (he : Entrant before after id i t)
    (hserved : Served before after i) (hcommand : t.command = .create request id initial) :
    ∃ r, t.status = .ended (some (.ofResult r)) ∧ Command.EndsOpening id initial t.history r := by
  have hon := (h.onCourse he hcommand).1
  unfold Task.OnCourse at hon
  split at hon
  · rename_i sus hstatus
    obtain ⟨-, hdone, hobeys⟩ := hon
    have hlt : t.history.length < 8 := hobeys.length_lt hdone
    obtain ⟨begun, rest, rfl, hi, hsteps⟩ := hserved
    have hle := h.countP_le_of_running he hi hstatus
    omega
  · rename_i outcome hstatus
    obtain ⟨r, rfl, hr⟩ := hon
    exact ⟨r, hstatus, hr⟩

/-- An opening that is served commits, or it is told that the account exists, and so it does. -/
theorem committed_or_rejected (h : Contest before after id) (he : Entrant before after id i t)
    (hserved : Served before after i) :
    i ∈ (run empty (before ++ after)).commits ∨
      t.status = .ended (some (.failed (.rejected (.alreadyExists id)))) ∧
        (run empty (before ++ after)).store.book.row id ≠ none := by
  obtain ⟨request, initial, hcommand⟩ := he.opens.exists_eq
  obtain ⟨r, hstatus, hr⟩ := h.ended he hserved hcommand
  cases r with
  | ok answer =>
    have ho := Orderly.run (before ++ after)
    exact .inl ((ho.succeeded_iff he.task he.opens.transaction_ne_none).mp ⟨answer, hstatus⟩)
  | error why =>
    obtain ⟨rfl, o, hmem, hshows⟩ := hr
    exact .inr ⟨hstatus, (h.onCourse he hcommand).2 o hmem hshows⟩

theorem entrant_of_succeeded (h : Contest before after id)
    (ht : (run empty (before ++ after)).tasks[i]? = some t)
    (hopens : t.command.Opens id) (hs : t.Succeeded) : Entrant before after id i t := by
  refine ⟨?_, ht, hopens⟩
  by_contra hlate
  obtain ⟨t₀, ht₀⟩ : ∃ t₀, (run empty before).tasks[i]? = some t₀ :=
    ⟨_, List.getElem?_eq_getElem (Nat.lt_of_not_le hlate)⟩
  cases hstatus : t₀.status with
  | running sus =>
    obtain ⟨t', ht', hc⟩ := exists_continues ht₀ after
    rw [← run_append] at ht'
    cases ht.symm.trans ht'
    exact h.ceased i t₀ sus ⟨ht₀, hstatus⟩ (hc.command ▸ hopens)
  | ended outcome =>
    -- it would have committed before the race, to an account that does not exist
    have hsame := ended_run ht₀ hstatus after
    rw [← run_append, ht] at hsame
    cases hsame
    have hcommitted := ((Orderly.run before).succeeded_iff ht₀ hopens.transaction_ne_none).mp hs
    rcases vacant_or_founds before id with hvacant | ⟨w, hfounds⟩
    · exact hvacant.unopened i hcommitted t ht₀ hopens
    · exact hfounds.row h.absent

end Contest

/-- Of the openings in a race, be there one or more, exactly one succeeds once all have been served. The
others are told that the account exists. The stream of the account begins with the two events of the
winner, and its row keeps the time at which the winner opened it. -/
theorem racing_openings (h : Contest before after id)
    (served : ∀ i t, Entrant before after id i t → Served before after i)
    (entrant : ∃ i t, Entrant before after id i t) :
    ∃ w t request initial now rest, Entrant before after id w t ∧
      t.command = .create request id initial ∧
      t.status = .ended (some (.answered (.account (.opened id initial now)))) ∧
      (∀ i t', Entrant before after id i t' → i ≠ w →
        t'.status = .ended (some (.failed (.rejected (.alreadyExists id))))) ∧
      ((run empty (before ++ after)).store.entriesFor id).map (·.toDraft) =
        request.openingDrafts t.settings id initial ++ rest ∧
      ∃ a, findRow id (run empty (before ++ after)).store.rows = some a ∧ a.createdAt = now := by
  obtain ⟨i, t, he⟩ := entrant
  rcases vacant_or_founds (before ++ after) id with hvacant | ⟨w, hw⟩
  · rcases h.committed_or_rejected he (served i t he) with hi | ⟨-, hrow⟩
    · exact absurd he.opens (hvacant.unopened i hi t he.task)
    · exact absurd hvacant.row hrow
  · obtain ⟨t, request, initial, now, ht, hcommand, hstatus, ⟨rest, hstream⟩, hcreated⟩ := hw.ended
    have hopens : t.command.Opens id := by
      rw [hcommand]
      rfl
    refine ⟨w, t, request, initial, now, rest, h.entrant_of_succeeded ht hopens ⟨_, hstatus⟩, hcommand,
      hstatus, ?_, ?_, Option.map_eq_some_iff.mp hcreated⟩
    · intro j t' he' hne
      rcases h.committed_or_rejected he' (served j t' he') with hj | ⟨hfailed, -⟩
      · exact absurd (hw.only j hj t' he'.task he'.opens) hne
      · exact hfailed
    · rw [Store.map_toDraft_entriesFor (Orderly.run _).reached.kept, hstream]

end

/-! ## Two openings that both come up to their commits -/

/-- Two openings of one account begin, and one of another account. -/
def rivals : List Action := [opensWith txA idA ten, opensWith txB idA tenth, opensWith txC idB ten]

def rivalry : List Action := steps 0 7 ++ steps 1 7 ++ steps 2 8 ++ steps 1 1 ++ steps 0 1

theorem lt_of_entrant_rivals (he : Entrant [] (rivals ++ rivalry) id i t) : i < 3 := by
  have hlength : (run empty (rivals ++ rivalry)).tasks.length = 3 := by decide +kernel
  exact hlength ▸ (List.getElem?_eq_some_iff.mp he.task).1

theorem contest_rivals : Contest [] (rivals ++ rivalry) idA where
  absent := rfl
  ceased _ _ _ hr := by simpa [empty] using hr.task
  healed := rfl
  plain := by decide
  distinct i t he j t' ht' htx := by
    have hnodup : ((rivals ++ rivalry).filterMap Action.transaction?).Nodup := by decide
    obtain ⟨x, hx⟩ := Option.ne_none_iff_exists'.mp he.opens.transaction_ne_none
    exact eq_of_transaction_eq hnodup ht' he.task (htx.trans hx) hx
  fresh i t he := by
    have hfresh : ∀ t ∈ (run empty (rivals ++ rivalry)).tasks, ∀ request ∈ t.command.request?,
        ∀ now ∈ t.readings, Workflow.Fresh t.settings request now := by decide +kernel
    exact hfresh t (List.mem_of_getElem? he.task)
  undisturbed i t he := by
    have hstops : ∀ i < 3, ∀ a ∈ rivals ++ rivalry, a.stops i = false := by decide
    exact hstops i (lt_of_entrant_rivals he)

theorem served_rivals (he : Entrant [] (rivals ++ rivalry) id i t) :
    Served [] (rivals ++ rivalry) i := by
  have hsteps : ∀ i < 3, 8 ≤ rivalry.countP (·.advances i) := by decide
  have hi := lt_of_entrant_rivals he
  exact ⟨rivals, rivalry, rfl, hi, hsteps i hi⟩

theorem racing_openings_rivals :
    Contest [] (rivals ++ rivalry) idA ∧
    (∀ i t, Entrant [] (rivals ++ rivalry) idA i t → Served [] (rivals ++ rivalry) i) ∧
    (∃ i t, Entrant [] (rivals ++ rivalry) idA i t) ∧
    (run empty (rivals ++ rivalry)).commits = [2, 1] ∧
    ∃ w t request initial now rest, Entrant [] (rivals ++ rivalry) idA w t ∧
      t.command = .create request idA initial ∧
      t.status = .ended (some (.answered (.account (.opened idA initial now)))) ∧
      (∀ i t', Entrant [] (rivals ++ rivalry) idA i t' → i ≠ w →
        t'.status = .ended (some (.failed (.rejected (.alreadyExists idA))))) ∧
      ((run empty (rivals ++ rivalry)).store.entriesFor idA).map (·.toDraft) =
        request.openingDrafts t.settings idA initial ++ rest ∧
      ∃ a, findRow idA (run empty (rivals ++ rivalry)).store.rows = some a ∧ a.createdAt = now := by
  have hentrant : ∃ i t, Entrant [] (rivals ++ rivalry) idA i t := by
    have hopens : ∃ command ∈ ((run empty (rivals ++ rivalry)).tasks[0]?).map (·.command),
        command.Opens idA := by decide +kernel
    obtain ⟨command, hcommand, hopens⟩ := hopens
    obtain ⟨t, ht, rfl⟩ := Option.map_eq_some_iff.mp hcommand
    exact ⟨0, t, Nat.zero_le _, ht, hopens⟩
  have hserved : ∀ i t, Entrant [] (rivals ++ rivalry) idA i t → Served [] (rivals ++ rivalry) i :=
    fun i t => served_rivals
  have hcommits : (run empty (rivals ++ rivalry)).commits = [2, 1] := by decide +kernel
  exact ⟨contest_rivals, hserved, hentrant, hcommits,
    racing_openings contest_rivals hserved hentrant⟩

end System

end Bookkeeping
