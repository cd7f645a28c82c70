import Bookkeeping.Proofs.Conservation
import Bookkeeping.Proofs.LockOrder
import Bookkeeping.Proofs.Tasks
import Mathlib.Order.Defs.Unbundled

/-! # The times in rows

The times in a row are readings of the clock. A transfer reads the clock for its rows only when it has
their locks, and so after everything that was read for the versions that it replaces; an opening has no
row to replace, and its reading comes before those of all who read its row. Therefore the times in the
versions of a row go forward if the clock does, in whatever order the commands take turns.
-/
namespace Bookkeeping
open Bookkeeping.Time

/-! ## Locks come before the second reading -/

def Observation.reading? : Observation → Option Instant
  | .read now => some now
  | .replied .. => none

/-- No lock is asked for once the clock was read twice. -/
def earlyLocks : Rule := fun h c =>
  match c with
  | .lockAccount .. => (h.filterMap Observation.reading?).length ≤ 1
  | _ => True

theorem lockFree_imp_earlyLocks (h : List Observation) (c : Call) (hc : lockFree h c) :
    earlyLocks h c := by
  cases c with
  | lockAccount u id => exact hc.elim
  | _ => trivial

theorem readings_concat_replied (h : List Observation) (c : Call) (r : c.Reply) :
    (h ++ [Observation.replied c r]).filterMap Observation.reading? = h.filterMap Observation.reading? := by
  simp [Observation.reading?]

namespace Workflow

variable {h : List Observation}

theorem obeys_lockedRow_early {u : UnitId} {id : AccountId}
    {Q : List Observation → Option Account → Prop}
    (hread : (h.filterMap Observation.reading?).length ≤ 1)
    (hQ : ∀ h row, (h.filterMap Observation.reading?).length ≤ 1 → Q h row) :
    Obeys earlyLocks.contract Q (do lockedRow (← ask (.lockAccount u id))) h := by
  rw [obeys_bind, obeys_ask]
  refine ⟨hread, ?_⟩
  intro r
  rw [← readings_concat_replied h (.lockAccount u id) r] at hread
  cases r with
  | ok a => exact obeys_pure.mpr (hQ _ _ hread)
  | error e =>
    rw [lockedRow]
    split
    · exact obeys_pure.mpr (hQ _ _ hread)
    · exact obeys_reject.mpr trivial

theorem obeys_lockPair_early {u : UnitId} {source destination : AccountId}
    {Q : List Observation → Option Account × Option Account → Prop}
    (hread : (h.filterMap Observation.reading?).length ≤ 1) (hQ : ∀ h rows, Q h rows) :
    (lockPair u source destination).Obeys earlyLocks.contract Q h := by
  unfold lockPair
  split <;>
    exact obeys_bind_bind.mpr (obeys_lockedRow_early hread fun h _ hread =>
      obeys_bind_bind.mpr (obeys_lockedRow_early hread fun h _ _ => obeys_pure.mpr (hQ _ _)))

end Workflow

theorem earlyLocks_obeyed : Rule.Obeyed fun _ => earlyLocks := by
  apply Rule.obeyed_of_transfers fun _ => lockFree_imp_earlyLocks
  intro settings request source destination amount
  apply Workflow.obeys_transfer_of_lockPair lockFree_imp_earlyLocks
  intro _ checked recorded opened u
  exact Workflow.obeys_lockPair_early (Nat.le_refl 1) fun _ _ _ _ => trivial

/-! ## Rows that were read under locks -/

namespace Knowledge

/-- What is told changes the rows that were read under locks only by a lock that is granted, and drops
them when a unit of work is opened. -/
theorem tell_locked (k : Knowledge) (o : Observation) :
    ((k.tell o).unit = k.unit ∧ (k.tell o).locked = k.locked ∧
      ((k.tell o).cleared = k.cleared ∨ (k.tell o).cleared = k.locked.map (·.1))) ∨
    ((k.tell o).locked = [] ∧ (k.tell o).cleared = []) ∨
    ∃ u id a, o = .replied (.lockAccount u id) (.ok a) ∧ (k.tell o).locked = (id, a) :: k.locked ∧
      (k.tell o).cleared = k.cleared := by
  have hsame {k' : Knowledge} (hu : k'.unit = k.unit) (hl : k'.locked = k.locked)
      (hc : k'.cleared = k.cleared) : k'.unit = k.unit ∧ k'.locked = k.locked ∧
        (k'.cleared = k.cleared ∨ k'.cleared = k.locked.map (·.1)) := ⟨hu, hl, .inl hc⟩
  cases o with
  | read now => exact .inl (hsame rfl rfl rfl)
  | replied c r =>
    cases c with
    | openUnit =>
      cases r with
      | ok u => exact .inr (.inl ⟨rfl, rfl⟩)
      | error e => exact .inl (hsame rfl rfl rfl)
    | lockAccount u id =>
      cases r with
      | ok a => exact .inr (.inr ⟨u, id, a, rfl, rfl, rfl⟩)
      | error e => exact .inl (hsame rfl rfl rfl)
    | findByTransaction t =>
      cases r with
      | ok es => cases es <;> exact .inl (hsame rfl rfl rfl)
      | error e => rw [tell]; split <;> exact .inl (hsame rfl rfl rfl)
    | findByTransactionIn u t =>
      cases r with
      | ok es =>
        cases es with
        | nil => exact .inl ⟨rfl, rfl, .inr rfl⟩
        | cons e es => exact .inl (hsame rfl rfl rfl)
      | error e =>
        rw [tell]
        split
        · exact .inl ⟨rfl, rfl, .inr rfl⟩
        · exact .inl (hsame rfl rfl rfl)
    | findLastIn u id => cases r <;> exact .inl (hsame rfl rfl rfl)
    | append u drafts => cases r <;> exact .inl (hsame rfl rfl rfl)
    | upsertAccount u a => cases r <;> exact .inl (hsame rfl rfl rfl)
    | commit u => cases r <;> exact .inl (hsame rfl rfl rfl)
    | _ => exact .inl (hsame rfl rfl rfl)

theorem cleared_subset (command : Command) (h : List Observation) :
    (ofHistory command h).cleared ⊆ (ofHistory command h).locked.map (·.1) := by
  induction h using List.reverseRecOn with
  | nil => exact List.nil_subset _
  | append_singleton h o ih =>
    rw [ofHistory_concat]
    rcases (ofHistory command h).tell_locked o with
      ⟨-, hl, hc | hc⟩ | ⟨hl, hc⟩ | ⟨u, id, a, -, hl, hc⟩ <;> rw [hl, hc]
    · exact ih
    · exact List.Subset.refl _
    · exact List.nil_subset _
    · exact List.Subset.trans ih (List.subset_cons_self _ _)

end Knowledge

/-! ## Versions of rows -/

section Order
variable (le : Instant → Instant → Prop) [IsPreorder Instant le]

/-- Every row is still there, opened at the same time and not changed earlier than before. -/
def Book.Succeeds (b b' : Book) : Prop :=
  ∀ id a, b.row id = some a →
    ∃ a', b'.row id = some a' ∧ a'.createdAt = a.createdAt ∧ le a.updatedAt a'.updatedAt

variable {le} {b b' b'' : Book}

theorem Book.Succeeds.refl (b : Book) : b.Succeeds le b :=
  fun _ a ha => ⟨a, ha, rfl, refl_of le _⟩

theorem Book.Succeeds.trans (h : b.Succeeds le b') (h' : b'.Succeeds le b'') :
    b.Succeeds le b'' := by
  intro id a ha
  obtain ⟨a', ha', hcreated, hupdated⟩ := h id a ha
  obtain ⟨a'', ha'', hcreated', hupdated'⟩ := h' id a' ha'
  exact ⟨a'', ha'', hcreated'.trans hcreated, trans_of le hupdated hupdated'⟩

end Order

/-- A posting leaves a row alone, or makes a new one at the one reading of its command, or changes it at
the second reading. -/
theorem Command.Posts.row_cases {settings : Settings} {command : Command} {readings : List Instant}
    {b : Book} {p : Posting} (h : command.Posts settings readings b p) (id : AccountId) :
    (b.post p).row id = b.row id ∨
    (∃ a' now, readings = [now] ∧ b.row id = none ∧ (b.post p).row id = some a' ∧
      a'.createdAt = now ∧ a'.updatedAt = now) ∨
    ∃ a a' checked now, readings = [checked, now] ∧ id ∈ command.accounts ∧ b.row id = some a ∧
      (b.post p).row id = some a' ∧ a'.createdAt = a.createdAt ∧ a'.updatedAt = now := by
  cases h with
  | opening _ hrow =>
    rw [Book.row_post_opening]
    split
    · rename_i he
      exact .inr (.inl ⟨_, _, rfl, he ▸ hrow, rfl, rfl, rfl⟩)
    · exact .inl rfl
  | movement _ _ hs hd hdebit hcredit =>
    have hds := (Account.debit_id hdebit).trans (Book.row_id hs)
    have hcd := (Account.credit_id hcredit).trans (Book.row_id hd)
    rw [Book.row_post_movement _ _ _ _ hds hcd]
    split
    · rename_i he
      exact .inr (.inr ⟨_, _, _, _, rfl, by simp [accounts, he], he ▸ hd, rfl,
        Account.credit_createdAt hcredit, Account.credit_updatedAt hcredit⟩)
    · split
      · rename_i he
        exact .inr (.inr ⟨_, _, _, _, rfl, by simp [accounts, he], he ▸ hs, rfl,
          Account.debit_createdAt hdebit, Account.debit_updatedAt hdebit⟩)
      · exact .inl rfl

namespace System

/-! ## Readings in the order in which they are taken -/

def reading? (s : System) : Action → Option Instant
  | .advance i now reading =>
    match s.tasks[i]? with
    | some t =>
      match t.status with
      | .running sus => (sus.step now reading s.backend).told.bind Observation.reading?
      | .ended _ => none
    | none => none
  | _ => none

def readings (s : System) : List Action → List Instant
  | [] => []
  | a :: rest => (s.reading? a).toList ++ (s.step a).readings rest

variable {s s' : System} {i : Nat} {t t' : Task} {sus : Suspended (Except Failure Answer)}

theorem readings_append (s : System) (before after : List Action) :
    s.readings (before ++ after) = s.readings before ++ (s.run before).readings after := by
  induction before generalizing s with
  | nil => rfl
  | cons a before ih => simp only [List.cons_append, readings, ih, List.append_assoc]; rfl

theorem readings_concat (s : System) (actions : List Action) (a : Action) :
    s.readings (actions ++ [a]) = s.readings actions ++ ((s.run actions).reading? a).toList := by
  rw [readings_append, readings, readings, List.append_nil]

theorem Runs.reading?_eq (hr : s.Runs i t sus) (now : Duration) (reading : Instant) :
    s.reading? (.advance i now reading) =
      (sus.step now reading s.backend).told.bind Observation.reading? := by
  simp only [reading?, hr.task, hr.running]

theorem readings_after (t : Task) (m : Move (Except Failure Answer)) :
    (t.after m).readings = t.readings ++ (m.told.bind Observation.reading?).toList := by
  change (t.history ++ m.told.toList).filterMap Observation.reading? = _
  rw [List.filterMap_append]
  rcases m.told with _ | (_ | _) <;> rfl

/-! ## What a step preserves -/

variable {le : Instant → Instant → Prop} {taken : List Instant}

/-- The times of rows are in order and were read by then, as were those known to tasks. A task that has
read the clock twice did so last after the rows were changed that it has locked. -/
structure Timely (le : Instant → Instant → Prop) (taken : List Instant) (s : System) : Prop where
  rows : ∀ id a, s.store.book.row id = some a → le a.createdAt a.updatedAt ∧ a.updatedAt ∈ taken
  told : ∀ (i : Nat) (t : Task), s.tasks[i]? = some t → t.readings ⊆ taken
  locked : ∀ i t sus checked now, s.Runs i t sus → t.knowledge.unit ≠ none →
    t.readings = [checked, now] → ∀ p ∈ t.knowledge.locked, le p.2.updatedAt now

namespace Timely

theorem le_of_commits (h : s.Timely le taken) (ho : s.Orderly) {p : Posting}
    (hc : s.Commits i t p s') {checked now : Instant} (hread : t.readings = [checked, now])
    {id : AccountId} (hid : id ∈ t.command.accounts) {a : Account}
    (ha : s.store.book.row id = some a) : le a.updatedAt now := by
  obtain ⟨sus, hr⟩ := hc.runs
  obtain ⟨u, hu⟩ := Option.ne_none_iff_exists'.mp hc.opened
  have hcleared : id ∈ t.knowledge.cleared := hc.cleared id hid (by simp [ha])
  obtain ⟨⟨_, a'⟩, hlocked, rfl⟩ := List.mem_map.mp (Knowledge.cleared_subset _ _ hcleared)
  have hsteady := ho.steady hr
  have hrow := ((hsteady.stands u (hsteady.unit.trans hu)).locked _ a' hlocked).2
  rw [ha] at hrow
  cases hrow
  exact h.locked i t sus checked now hr hc.opened hread _ hlocked

theorem locked_after (h : s.Timely le taken) (ho : s.Orderly) (hr : s.Runs i t sus)
    (hobeys : sus.program.Obeys earlyLocks.contract (fun _ _ => True) t.history) {now : Duration}
    {reading : Instant}
    (hlate : ∀ r ∈ taken, ∀ r' ∈ s.reading? (.advance i now reading), le r r')
    {sus' : Suspended (Except Failure Answer)}
    (hrun : (t.after (sus.step now reading s.backend)).status = .running sus')
    (hunit : (t.after (sus.step now reading s.backend)).knowledge.unit ≠ none)
    {first last : Instant}
    (hread : (t.after (sus.step now reading s.backend)).readings = [first, last]) :
    ∀ p ∈ (t.after (sus.step now reading s.backend)).knowledge.locked, le p.2.updatedAt last := by
  have hst := ho.steady hr
  rw [hr.reading?_eq] at hlate
  rw [readings_after] at hread
  rcases sus.step_cases now reading s.backend with ⟨r, hprogram, hstep⟩ | ⟨next, hprogram, hstep⟩ |
    ⟨c, next, phase, b', hprogram, hattempt, hstep⟩ | ⟨c, next, r, b', hprogram, hattempt, hstep⟩
  all_goals rw [hstep] at hrun hunit hread hlate ⊢
  · cases hrun
  · -- the rows that it has locked are as they are committed, so that their times were read by now
    rw [Task.knowledge_after_telling] at hunit ⊢
    obtain ⟨u, hu⟩ := Option.ne_none_iff_exists'.mp hunit
    have hconcat : t.readings ++ [reading] = [first] ++ [last] := hread
    obtain ⟨-, hlast⟩ := List.append_inj' hconcat rfl
    rintro ⟨id, a⟩ hp
    have hrow := ((hst.stands u (hst.unit.trans hu)).locked id a hp).2
    exact hlate _ (h.rows id a hrow).2 last (congrArg some (List.singleton_inj.mp hlast))
  · have hsame : (t.after ⟨none, .suspended ⟨sus.program, phase, sus.unit⟩, b'⟩).knowledge =
        t.knowledge := by simp [Task.after, Task.knowledge]
    rw [hsame] at hunit ⊢
    exact h.locked i t sus first last hr hunit (by simpa using hread)
  · rw [Task.knowledge_after_telling] at hunit ⊢
    have htwo : t.readings = [first, last] := by simpa [Move.telling, Observation.reading?] using hread
    rcases t.knowledge.tell_locked (.replied c r) with
      ⟨hu, hl, -⟩ | ⟨hl, -⟩ | ⟨u, id, a, he, -⟩
    · rw [hu] at hunit
      rw [hl]
      exact h.locked i t sus first last hr hunit htwo
    · rw [hl]
      exact fun p hp => absurd hp List.not_mem_nil
    · -- a lock is asked for too early for that
      cases he
      rw [hprogram] at hobeys
      have hlength : t.readings.length ≤ 1 := hobeys.1
      rw [htwo] at hlength
      exact absurd hlength (Nat.not_succ_le_self 1)

variable [IsPreorder Instant le]

theorem commit (h : s.Timely le taken) (ho : s.Orderly) {p : Posting} (hc : s.Commits i t p s') :
    (∀ id a, s'.store.book.row id = some a →
      le a.createdAt a.updatedAt ∧ a.updatedAt ∈ taken) ∧
    s.store.book.Succeeds le s'.store.book := by
  obtain ⟨sus, hr⟩ := hc.runs
  have htold := h.told i t hr.task
  rw [hc.book]
  refine ⟨fun id a' ha' => ?_, fun id a ha => ?_⟩
  · rcases hc.posts.row_cases id with hrow | ⟨a₁, now, hread, -, hrow, hcreated, hupdated⟩ |
      ⟨a, a₁, checked, now, hread, hid, ha, hrow, hcreated, hupdated⟩ <;> rw [hrow] at ha'
    · exact h.rows id a' ha'
    · cases ha'
      rw [hcreated, hupdated]
      exact ⟨refl_of le now, htold (by simp [hread])⟩
    · cases ha'
      rw [hcreated, hupdated]
      have hle := h.le_of_commits ho hc hread hid ha
      exact ⟨trans_of le (h.rows id a ha).1 hle, htold (by simp [hread])⟩
  · rcases hc.posts.row_cases id with hrow | ⟨a₁, now, -, hnone, -⟩ |
      ⟨a₀, a₁, checked, now, hread, hid, ha₀, hrow, hcreated, hupdated⟩
    · exact ⟨a, hrow.trans ha, rfl, refl_of le _⟩
    · rw [ha] at hnone
      cases hnone
    · rw [ha] at ha₀
      cases ha₀
      exact ⟨a₁, hrow, hcreated, hupdated ▸ h.le_of_commits ho hc hread hid ha⟩

theorem step (h : s.Timely le taken) (ho : s.Orderly)
    (hobeys : ∀ i t sus, s.Runs i t sus → sus.program.Obeys earlyLocks.contract (fun _ _ => True) t.history)
    {a : Action} (hlate : ∀ r ∈ taken, ∀ r' ∈ s.reading? a, le r r') :
    (s.step a).Timely le (taken ++ (s.reading? a).toList) ∧
      s.store.book.Succeeds le (s.step a).store.book := by
  have hrows : (∀ id x, (s.step a).store.book.row id = some x →
      le x.createdAt x.updatedAt ∧ x.updatedAt ∈ taken) ∧
      s.store.book.Succeeds le (s.step a).store.book := by
    rcases (ho.step a).2 with hidle | ⟨i, now, reading, t, p, -, hc⟩
    · rw [hidle.book]
      exact ⟨h.rows, .refl _⟩
    · exact h.commit ho hc
  refine ⟨⟨fun id x hx => ?_, fun i t' ht' => ?_, ?_⟩, hrows.2⟩
  · exact (hrows.1 id x hx).imp_right (List.mem_append_left _)
  · rcases task_of_step ht' with ht | ⟨settings, command, -, rfl⟩ | ⟨now, reading, t, sus, rfl, hr, rfl⟩ |
      ⟨t, sus, outcome, -, hr, rfl⟩
    · exact List.Subset.trans (h.told i t' ht) (List.subset_append_left _ _)
    · exact List.nil_subset _
    · rw [readings_after, hr.reading?_eq]
      exact List.append_subset.mpr ⟨List.Subset.trans (h.told i t hr.task)
        (List.subset_append_left _ _), List.subset_append_right _ _⟩
    · exact List.Subset.trans (h.told i t hr.task) (List.subset_append_left _ _)
  · intro i t' sus' checked now hr' hunit hread
    rcases hr'.of_step with hr | ⟨settings, command, rfl⟩ | ⟨time, reading, t, sus, rfl, hr, rfl⟩
    · exact h.locked i t' sus' checked now hr hunit hread
    · cases hread
    · exact h.locked_after ho hr (hobeys i t sus hr) hlate hr'.running hunit hread

theorem run (actions : List Action) (hclock : (empty.readings actions).Pairwise le) :
    (run empty actions).Timely le (empty.readings actions) := by
  induction actions using List.reverseRecOn with
  | nil =>
    refine ⟨fun id a ha => ?_, fun i t ht => ?_, fun i t sus _ _ hr => ?_⟩
    · cases ha
    · simp [System.run, empty] at ht
    · simpa [System.run, empty] using hr.task
  | append_singleton actions a ih =>
    rw [readings_concat] at hclock ⊢
    obtain ⟨hbefore, -, hlate⟩ := List.pairwise_append.mp hclock
    rw [run_concat]
    exact ((ih hbefore).step (Orderly.run actions) (fun _ _ _ => obeys_run earlyLocks_obeyed actions)
      fun r hr r' hr' => hlate r hr r' (Option.mem_toList.mpr hr')).1

end Timely

theorem succeeds_run [IsPreorder Instant le] (before after : List Action)
    (hclock : (empty.readings (before ++ after)).Pairwise le) :
    (run empty before).store.book.Succeeds le (run empty (before ++ after)).store.book := by
  induction after using List.reverseRecOn with
  | nil =>
    rw [List.append_nil]
    exact .refl _
  | append_singleton after a ih =>
    rw [← List.append_assoc, readings_concat] at hclock
    obtain ⟨hbefore, -, hlate⟩ := List.pairwise_append.mp hclock
    rw [← List.append_assoc, run_concat]
    exact (ih hbefore).trans ((Timely.run _ hbefore).step (Orderly.run _)
      (fun _ _ _ => obeys_run earlyLocks_obeyed _)
      fun r hr r' hr' => hlate r hr r' (Option.mem_toList.mpr hr')).2

/-- If the readings of the clock do not decrease in the order in which commands take them, in whatever
order of instants, then no row was opened after its last change. At any later moment an account still has
a row, which was opened at the same time and was not changed earlier than the row before. -/
theorem row_times (le : Instant → Instant → Prop) [IsPreorder Instant le] (before after : List Action)
    (hclock : (empty.readings (before ++ after)).Pairwise le) (id : AccountId) (a : Account)
    (ha : findRow id (run empty before).store.rows = some a) :
    le a.createdAt a.updatedAt ∧
      ∃ a', findRow id (run empty (before ++ after)).store.rows = some a' ∧
        a'.createdAt = a.createdAt ∧ le a.updatedAt a'.updatedAt := by
  have hbefore : (empty.readings before).Pairwise le := by
    rw [readings_append] at hclock
    exact (List.pairwise_append.mp hclock).1
  exact ⟨((Timely.run before hbefore).rows id a ha).1, succeeds_run before after hclock id a ha⟩

instance : IsPreorder Instant (· ≤ ·) where
  refl := Instant.le_refl
  trans _ _ _ := Instant.le_trans

def ticking : List Action :=
  (uncommitted ten ten tenth ++ [final]).mapIdx fun n a =>
    match a with
    | .advance i now _ => .advance i now (.ofNanos n)
    | a => a

theorem row_times_ticking :
    (empty.readings ticking).Pairwise (· ≤ ·) ∧
    ∃ a a', findRow idA (run empty (ticking.take 11)).store.rows = some a ∧
      findRow idA (run empty ticking).store.rows = some a' ∧
      a'.createdAt = a.createdAt ∧ a.updatedAt ≤ a'.updatedAt ∧ a'.updatedAt ≠ a.updatedAt := by
  have hclock : (empty.readings (ticking.take 11 ++ ticking.drop 11)).Pairwise (· ≤ ·) := by
    decide +kernel
  have ha : findRow idA (run empty (ticking.take 11)).store.rows =
      some (.opened idA ten (.ofNanos 3)) := by decide +kernel
  obtain ⟨-, a', ha', hcreated, hupdated⟩ := row_times (· ≤ ·) _ _ hclock idA _ ha
  have hlater : (findRow idA (run empty ticking).store.rows).map (·.updatedAt) ≠
      some (.ofNanos 3) := by decide +kernel
  rw [List.take_append_drop] at hclock ha'
  refine ⟨hclock, _, a', ha, ha', hcreated, hupdated, ?_⟩
  rw [ha'] at hlater
  exact fun he => hlater (congrArg some he)

end System

end Bookkeeping
