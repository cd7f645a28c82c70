import Bookkeeping.Proofs.LockOrder
import Bookkeeping.Proofs.Queue
import Mathlib.Logic.Relation

/-! # No deadlock

A unit of work is open only as long as its task runs, and holds no locks but those that the task has
asked for, in ascending order. A task that waits for a lock therefore waits for tasks that can wait
only for locks of larger ids, or that are ahead of it in one queue, so that waits never close to a
cycle and the last task of a chain of waits can go on.
-/
namespace Bookkeeping
open Bookkeeping.Time

/-! ## Places in a queue, and locks, of a running task -/

/-- The unit of work of a running task stands only in the queue of the lock that the task is asking
for, and holds only locks that the task has asked for. -/
structure Task.Lines (t : Task) (sus : Suspended (Except Failure Answer)) (s : Store) (u : UnitId) :
    Prop where
  waiting : ∀ x, (u, x) ∈ s.waiting →
    sus.phase = .entered ∧ ∃ next, sus.program = .call (.lockAccount u x) next
  held : ∀ y ∈ (s.unit u).held,
    y ∈ asked t.history ∨ ∃ next, sus.program = .call (.lockAccount u y) next

namespace Task

variable {t : Task} {sus : Suspended (Except Failure Answer)} {s s' : Store} {b b' : Backend}
  {u v : UnitId} {c : Call} {now : Duration}

theorem Lines.serves (h : t.Lines sus s u) (hs : s.Serves s' u) : t.Lines sus s' u where
  waiting x hx := h.waiting x (hs.waiting x hx)
  held y hy := by
    rcases hs.held y hy with hy | hy
    · exact h.held y hy
    · exact .inr (h.waiting y hy).2

theorem Lines.not_mem_waiting (h : t.Lines sus b.store v) (hq : b.store.Queued [])
    {next : c.Reply → Program (Except Failure Answer)} (hprogram : sus.program = .call c next)
    {r : c.Reply} (hattempt : b.attempt now c sus.phase = .replied r b') (x : AccountId) :
    (v, x) ∉ b.store.waiting := by
  intro hx
  obtain ⟨hphase, next', hprogram'⟩ := h.waiting x hx
  rw [hprogram] at hprogram'
  cases hprogram'
  rw [hphase] at hattempt
  exact hq.not_mem_of_respond (Backend.attempt_entered hattempt) hx

theorem mem_asked_told {h : List Observation} {x : AccountId} (r : (Call.lockAccount v x).Reply) :
    x ∈ asked (h ++ [.replied (.lockAccount v x) r]) := by
  rw [asked_concat]
  simp [Observation.lockAsked]

theorem Lines.told (h : t.Lines sus b.store v) (hq : b.store.Queued [])
    {next : c.Reply → Program (Except Failure Answer)} (hprogram : sus.program = .call c next)
    {r : c.Reply} (hattempt : b.attempt now c sus.phase = .replied r b') :
    (∀ x, (v, x) ∉ b'.store.waiting) ∧
      ∀ y ∈ (b'.store.unit v).held, y ∈ asked (t.history ++ [.replied c r]) := by
  have hnot := h.not_mem_waiting hq hprogram hattempt
  have hold (y : AccountId) (hy : y ∈ (b.store.unit v).held) :
      y ∈ asked (t.history ++ [.replied c r]) := by
    rcases h.held y hy with hy | ⟨next', hprogram'⟩
    · rw [asked_concat]
      exact List.mem_append_left _ hy
    · rw [hprogram] at hprogram'
      cases hprogram'
      exact mem_asked_told r
  rcases (Backend.attempt_replied hattempt).serves v with hs | ⟨x, rfl, hgive⟩
  · refine ⟨fun x hx => hnot x (hs.waiting x hx), fun y hy => ?_⟩
    rcases hs.held y hy with hy | hy
    · exact hold y hy
    · exact absurd hy (hnot y)
  · rw [hgive]
    refine ⟨hnot, fun y hy => ?_⟩
    rw [Store.giveLock, Store.unit_setUnit] at hy
    split at hy
    · rcases List.mem_cons.mp hy with rfl | hy
      · exact mem_asked_told r
      · exact hold y hy
    · exact hold y hy

end Task

theorem Program.settle_cases {α : Type} (p : Program α) (w : Option UnitId) (b : Backend) :
    (∃ a, p.settle w b = (.finished a, b.dropUnit w)) ∨
      p.settle w b = (.suspended ⟨p, .fresh, w⟩, b) := by
  cases p with
  | done a => exact .inl ⟨a, rfl⟩
  | call c next => exact .inr rfl
  | clock next => exact .inr rfl

namespace System

variable {s s' : System} {i j : Nat} {t t' : Task} {sus sus' : Suspended (Except Failure Answer)}
  {now : Duration} {reading : Instant} {u v : UnitId} {x y : AccountId}

/-- Every open unit of work is that of a running task, and those that wait stand in order. -/
structure Queued (s : System) : Prop where
  store : s.store.Queued []
  owned : ∀ u, s.store.IsOpen u → ∃ i t sus, s.Runs i t sus ∧ sus.unit = some u
  lines : ∀ i t sus u, s.Runs i t sus → sus.unit = some u → t.Lines sus s.store u

theorem queued_empty : Queued empty where
  store := Store.queued_empty
  owned := by simp [empty, Store.IsOpen]
  lines _ _ _ _ h := by simpa [empty] using h.task

namespace Queued

/-- One running task has come further and gives to the others only locks that they wait for. -/
theorem of_set (h : s.Queued) (ho : s.Orderly) (hr : s.Runs i t sus)
    (htasks : s'.tasks = s.tasks.set i t') (hstore : s'.store.Queued [])
    (hserves : ∀ v, sus.unit ≠ some v → s.store.Serves s'.store v)
    (hself : ∀ sus' u, t'.status = .running sus' → sus'.unit = some u → t'.Lines sus' s'.store u)
    (howned : ∀ u, s'.store.IsOpen u → (s.store.IsOpen u ∧ sus.unit ≠ some u) ∨
      ∃ sus', t'.status = .running sus' ∧ sus'.unit = some u) : s'.Queued := by
  have hi : i < s.tasks.length := (List.getElem?_eq_some_iff.mp hr.task).1
  have hget (j : Nat) : s'.tasks[j]? = if i = j then some t' else s.tasks[j]? := by
    rw [htasks, List.getElem?_set, if_pos hi]
  refine ⟨hstore, fun u hu => ?_, fun j t₁ sus₁ u hr₁ hu => ?_⟩
  · rcases howned u hu with ⟨hu, hne⟩ | ⟨sus', hrunning, hu⟩
    · obtain ⟨j, t₁, sus₁, hr₁, hu₁⟩ := h.owned u hu
      have hj : i ≠ j := by
        rintro rfl
        obtain ⟨rfl, rfl⟩ := hr.unique hr₁
        exact hne hu₁
      exact ⟨j, t₁, sus₁, ⟨by rw [hget, if_neg hj, hr₁.task], hr₁.running⟩, hu₁⟩
    · exact ⟨i, t', sus', ⟨by rw [hget, if_pos rfl], hrunning⟩, hu⟩
  · have ht₁ := hr₁.task
    rw [hget] at ht₁
    split at ht₁
    · cases ht₁
      exact hself sus₁ u hr₁.running hu
    · rename_i hj
      have hr₁ : s.Runs j t₁ sus₁ := ⟨ht₁, hr₁.running⟩
      refine (h.lines j t₁ sus₁ u hr₁ hu).serves (hserves u fun hsus => hj ?_)
      exact ho.apart i j t t₁ sus sus₁ u hr hr₁ hsus hu

theorem of_drop (h : s.Queued) (ho : s.Orderly) (hr : s.Runs i t sus) {outcome : Option Outcome}
    (ht' : t'.status = .ended outcome) (htasks : s'.tasks = s.tasks.set i t')
    (hbackend : s'.backend = s.backend.dropUnit sus.unit) : s'.Queued := by
  have hstore : s'.store = (s.backend.dropUnit sus.unit).store := congrArg Backend.store hbackend
  refine h.of_set ho hr htasks ?_ (fun v _ => ?_) (fun sus' u hrunning => ?_) fun u hu => ?_
  · rw [hstore]
    exact h.store.dropUnit
  · rw [hstore]
    exact .dropUnit _ _ v
  · rw [ht'] at hrunning
    cases hrunning
  · rw [hstore] at hu
    exact .inl (Store.isOpen_dropUnit.mp hu).symm

theorem of_telling (h : s.Queued) (ho : s.Orderly) (hr : s.Runs i t sus) {b : Backend}
    {o : Observation} {w : Option UnitId} {p : Program (Except Failure Answer)}
    (hstep : sus.step now reading s.backend = .telling o w b p) (hstore : b.store.Queued [])
    (hserves : ∀ v, sus.unit ≠ some v → s.store.Serves b.store v)
    (hself : ∀ u, w = some u → (∀ x, (u, x) ∉ b.store.waiting) ∧
      ∀ y ∈ (b.store.unit u).held, y ∈ asked (t.history ++ [o]))
    (hunit : ∀ u, sus.unit = some u → w = some u)
    (hopen : ∀ u, b.store.IsOpen u → s.store.IsOpen u ∨ w = some u) :
    (s.advance i now reading).Queued := by
  rw [hr.advance_eq, hstep]
  rcases p.settle_cases w b with ⟨a, hsettle⟩ | hsettle
  · simp only [Move.telling, hsettle]
    refine h.of_set ho hr rfl hstore.dropUnit (fun v hv => (hserves v hv).trans (.dropUnit b w v))
      (fun sus' u hrunning => by cases hrunning) fun u hu => .inl ?_
    obtain ⟨hne, hu⟩ := Store.isOpen_dropUnit.mp hu
    exact ⟨(hopen u hu).resolve_right hne, fun hsus => hne (hunit u hsus)⟩
  · simp only [Move.telling, hsettle]
    refine h.of_set ho hr rfl hstore hserves (fun sus' u hrunning hu => ?_) fun u hu => ?_
    · cases hrunning
      obtain ⟨hwaiting, hheld⟩ := hself u hu
      exact ⟨fun x hx => absurd hx (hwaiting x), fun y hy => .inl (hheld y hy)⟩
    · by_cases hw : w = some u
      · exact .inr ⟨⟨p, .fresh, w⟩, rfl, hw⟩
      · exact .inl ⟨(hopen u hu).resolve_right hw, fun hsus => hw (hunit u hsus)⟩

theorem advance_clock (h : s.Queued) (ho : s.Orderly) (hr : s.Runs i t sus)
    {next : Instant → Program (Except Failure Answer)} (hprogram : sus.program = .clock next)
    (hstep : sus.step now reading s.backend =
      .telling (.read reading) sus.unit s.backend (next reading)) :
    (s.advance i now reading).Queued := by
  refine h.of_telling ho hr hstep h.store (fun v _ => .refl _ v) (fun u hu => ?_) (fun u => id)
    fun u => .inl
  have hlines := h.lines i t sus u hr hu
  constructor
  · intro x hx
    obtain ⟨-, next', hprogram'⟩ := hlines.waiting x hx
    rw [hprogram] at hprogram'
    cases hprogram'
  · intro y hy
    rcases hlines.held y hy with hy | ⟨next', hprogram'⟩
    · rw [asked_concat]
      exact List.mem_append_left _ hy
    · rw [hprogram] at hprogram'
      cases hprogram'

theorem advance_told (h : s.Queued) (ho : s.Orderly) (hr : s.Runs i t sus) {c : Call}
    {next : c.Reply → Program (Except Failure Answer)} {r : c.Reply} {b : Backend}
    (hprogram : sus.program = .call c next)
    (hattempt : s.backend.attempt now c sus.phase = .replied r b)
    (hstep : sus.step now reading s.backend =
      .telling (.replied c r) (unitAfter sus.unit c r) b (next r)) :
    (s.advance i now reading).Queued := by
  have hst := ho.steady hr
  have hruns := hst.runs
  rw [hprogram] at hruns
  have hpermits := hruns.1
  have ht := Backend.attempt_replied hattempt
  refine h.of_telling ho hr hstep (ht.queued h.store) (fun v hv => ?_) (fun u hu => ?_)
    (fun u hu => ?_) fun u hu => ht.isOpen hu sus.unit
  · refine (ht.serves v).resolve_right ?_
    rintro ⟨x, rfl, -⟩
    exact hv (hst.unit.trans hpermits.2.1)
  · -- a unit that the reply has opened was in no queue and had no locks
    have hlines : t.Lines sus s.store u := by
      rcases (ho.stands_told hr hpermits ht hu).1 with hsus | hnew
      · exact h.lines i t sus u hr hsus
      · exact ⟨fun x hx => absurd (h.store.isOpen u x hx) hnew,
          fun y hy => absurd (Store.isOpen_of_mem_held hy) hnew⟩
    exact hlines.told h.store hprogram hattempt
  · rw [hst.unit] at hu
    rw [hst.unit, ← Knowledge.unit_tell]
    exact hpermits.unit_tell hu r

theorem advance_waits (h : s.Queued) (ho : s.Orderly) (hr : s.Runs i t sus) {c : Call}
    {next : c.Reply → Program (Except Failure Answer)} {phase : Backend.Phase} {b : Backend}
    (hprogram : sus.program = .call c next)
    (hattempt : s.backend.attempt now c sus.phase = .suspended phase b)
    (hstep : sus.step now reading s.backend =
      ⟨none, .suspended ⟨sus.program, phase, sus.unit⟩, b⟩) :
    (s.advance i now reading).Queued := by
  have hst := ho.steady hr
  have hruns := hst.runs
  rw [hprogram] at hruns
  have hunit? {v : UnitId} (hv : c.unit? = some v) : sus.unit = some v := by
    rw [hst.unit]
    rcases hruns.1.unit?_eq with hu | hu
    · rw [hu] at hv
      cases hv
    · rw [← hu, hv]
  obtain ⟨hqueued, hunits, hentered, hwaiting⟩ :=
    h.store.suspended ho.sound hattempt fun v hv => ho.isOpen hr (hunit? hv)
  have hsame (v : UnitId) : b.store.unit v = s.store.unit v := by
    rw [Store.unit, Store.unit, hunits]
  rw [hr.advance_eq, hstep]
  refine h.of_set ho hr rfl hqueued (fun v hv => ⟨fun x hx => ?_, fun x hx => ?_⟩)
    (fun sus' u hrunning hu => ?_) fun u hu => ?_
  · refine (hwaiting v x hx).resolve_right ?_
    rintro ⟨-, rfl⟩
    exact hv (hunit? rfl)
  · rw [hsame] at hx
    exact .inl hx
  · cases hrunning
    have hlines := h.lines i t sus u hr hu
    refine ⟨fun x hx => ?_, fun y hy => ?_⟩
    · rcases hwaiting u x hx with hx | ⟨hphase, rfl⟩
      · exact (hlines.waiting x hx).imp_left hentered
      · exact ⟨hphase, next, hprogram⟩
    · rw [hsame] at hy
      rw [Task.after, Option.toList_none, List.append_nil]
      exact hlines.held y hy
  · have hopen : s.store.IsOpen u := by
      rw [Store.IsOpen, ← hunits]
      exact hu
    by_cases hsus : sus.unit = some u
    · exact .inr ⟨_, rfl, hsus⟩
    · exact .inl ⟨hopen, hsus⟩

theorem advance (h : s.Queued) (ho : s.Orderly) (i : Nat) (now : Duration) (reading : Instant) :
    (s.advance i now reading).Queued := by
  by_cases hr : ∃ t sus, s.Runs i t sus
  · obtain ⟨t, sus, hr⟩ := hr
    rcases sus.step_cases now reading s.backend with ⟨r, hprogram, hstep⟩ |
      ⟨next, hprogram, hstep⟩ | ⟨c, next, phase, b, hprogram, hattempt, hstep⟩ |
      ⟨c, next, r, b, hprogram, hattempt, hstep⟩
    · rw [hr.advance_eq, hstep]
      exact h.of_drop ho hr rfl rfl rfl
    · exact h.advance_clock ho hr hprogram hstep
    · exact h.advance_waits ho hr hprogram hattempt hstep
    · exact h.advance_told ho hr hprogram hattempt hstep
  · rw [advance_of_not_runs hr]
    exact h

theorem stop (h : s.Queued) (ho : s.Orderly) (i : Nat) (outcome : Task → Option Outcome) :
    (s.stop i outcome).Queued := by
  by_cases hr : ∃ t sus, s.Runs i t sus
  · obtain ⟨t, sus, hr⟩ := hr
    rw [hr.stop_eq]
    exact h.of_drop ho hr rfl rfl rfl
  · rw [stop_of_not_runs hr]
    exact h

theorem start (h : s.Queued) (settings : Settings) (command : Command) :
    (s.step (.start settings command)).Queued := by
  refine ⟨h.store, fun u hu => ?_, fun i t sus u hr hu => ?_⟩
  · obtain ⟨i, t, sus, hr, hsus⟩ := h.owned u hu
    have hlt := (List.getElem?_eq_some_iff.mp hr.task).1
    exact ⟨i, t, sus, ⟨(List.getElem?_append_left hlt).trans hr.task, hr.running⟩, hsus⟩
  · rcases hr.of_start with hr | rfl
    · exact h.lines i t sus u hr hu
    · cases hr.running
      cases hu

theorem step (h : s.Queued) (ho : s.Orderly) (a : Action) : (s.step a).Queued := by
  cases a with
  | start settings command => exact h.start settings command
  | advance i now reading => exact h.advance ho i now reading
  | timeOut i => exact h.stop ho i _
  | cancel i => exact h.stop ho i _
  | arm faults =>
    refine ⟨h.store, fun u hu => ?_, fun i t sus u hr => h.lines i t sus u ⟨hr.task, hr.running⟩⟩
    obtain ⟨i, t, sus, hr, hsus⟩ := h.owned u hu
    exact ⟨i, t, sus, ⟨hr.task, hr.running⟩, hsus⟩

theorem run (actions : List Action) : (System.run empty actions).Queued := by
  induction actions using List.reverseRecOn with
  | nil => exact queued_empty
  | append_singleton actions a ih =>
    rw [run_concat]
    exact ih.step (Orderly.run actions) a

end Queued

/-! ## Who waits for whom -/

/-- A task asks for a lock that its unit of work does not hold while some other does. -/
structure Awaits (s : System) (i : Nat) (u : UnitId) (x : AccountId) : Prop where
  asks : ∃ t sus next, s.Runs i t sus ∧ sus.program = .call (.lockAccount u x) next
  not_held : x ∉ (s.store.unit u).held
  locked : s.store.Locked x

/-- A task waits for the one that holds the lock it asks for, and for all that are before it in the
queue of that lock; whoever is not in the queue yet comes last. -/
def WaitsFor (s : System) (i j : Nat) : Prop :=
  ∃ u x, s.Awaits i u x ∧ ∃ t sus v, s.Runs j t sus ∧ sus.unit = some v ∧
    (x ∈ (s.store.unit v).held ∨ s.store.waiting.idxOf (v, x) < s.store.waiting.idxOf (u, x))

/-- A running task comes to its next reply, its next reading of the clock, or its end by steps of its
own. -/
def GetsOn (s : System) (i : Nat) : Prop :=
  ∃ t sus, s.Runs i t sus ∧ ∃ (turns : List (Duration × Instant)) (t' : Task),
    (s.run (turns.map fun turn => .advance i turn.1 turn.2)).tasks[i]? = some t' ∧
      (t.history.length < t'.history.length ∨ ∃ outcome, t'.status = .ended outcome)

variable {actions : List Action}

theorem Awaits.unique (h : s.Awaits i u x) (h' : s.Awaits i v y) : u = v ∧ x = y := by
  obtain ⟨t, sus, next, hr, hprogram⟩ := h.asks
  obtain ⟨t', sus', next', hr', hprogram'⟩ := h'.asks
  obtain ⟨rfl, rfl⟩ := hr.unique hr'
  rw [hprogram] at hprogram'
  cases hprogram'
  exact ⟨rfl, rfl⟩

theorem Orderly.unit_of_lockAccount (ho : s.Orderly) (hr : s.Runs i t sus)
    {next : (Call.lockAccount u x).Reply → Program (Except Failure Answer)}
    (hprogram : sus.program = .call (.lockAccount u x) next) : sus.unit = some u := by
  have hst := ho.steady hr
  have hruns := hst.runs
  rw [hprogram] at hruns
  exact hst.unit.trans hruns.1.2.1

theorem Awaits.held_lt (h : (run empty actions).Awaits i u x)
    (hy : y ∈ ((run empty actions).store.unit u).held) : y < x := by
  obtain ⟨t, sus, next, hr, hprogram⟩ := h.asks
  have hobeys := obeys_run lockRule_obeyed actions hr
  rw [hprogram] at hobeys
  have hunit := (Orderly.run actions).unit_of_lockAccount hr hprogram
  rcases ((Queued.run actions).lines i t sus u hr hunit).held y hy with hy' | ⟨next', hprogram'⟩
  · exact hobeys.1 y hy'
  · rw [hprogram] at hprogram'
    cases hprogram'
    exact absurd hy h.not_held

theorem exists_awaits (h : (u, x) ∈ (run empty actions).store.waiting) :
    ∃ i, (run empty actions).Awaits i u x := by
  have hq := Queued.run actions
  obtain ⟨i, t, sus, hr, hunit⟩ := hq.owned u (hq.store.isOpen u x h)
  obtain ⟨-, next, hprogram⟩ := (hq.lines i t sus u hr hunit).waiting x h
  obtain ⟨v, hv⟩ := (hq.store.locked u x h).resolve_left List.not_mem_nil
  exact ⟨i, ⟨t, sus, next, hr, hprogram⟩, hq.store.not_held u x h, Store.locked_of_mem_held hv⟩

/-! ## No cycle -/

def Before (s : System) (p q : UnitId × AccountId) : Prop :=
  p.2 < q.2 ∨ p.2 = q.2 ∧ s.store.waiting.idxOf q < s.store.waiting.idxOf p

theorem Before.trans {p q r : UnitId × AccountId} (h : s.Before p q) (h' : s.Before q r) :
    s.Before p r := by
  rcases h with h | ⟨h, hlt⟩ <;> rcases h' with h' | ⟨h', hlt'⟩
  · exact .inl (AccountId.lt_def.mpr (Int.lt_trans h h'))
  · exact .inl (h' ▸ h)
  · exact .inl (h ▸ h')
  · exact .inr ⟨h.trans h', Nat.lt_trans hlt' hlt⟩

theorem Before.irrefl {p : UnitId × AccountId} : ¬s.Before p p := by
  rintro (h | ⟨-, h⟩)
  · exact Int.lt_irrefl _ h
  · exact Nat.lt_irrefl _ h

/-- A wait is for a task that waits for a larger id, or for the same lock at an earlier place. -/
theorem WaitsFor.before (h : (run empty actions).WaitsFor i j)
    (hi : (run empty actions).Awaits i u x) (hj : (run empty actions).Awaits j v y) :
    (run empty actions).Before (u, x) (v, y) := by
  obtain ⟨u', x', hi', t, sus, v', hr, hunit, hcases⟩ := h
  obtain ⟨rfl, rfl⟩ := hi.unique hi'
  obtain ⟨t', sus', next, hr', hprogram⟩ := hj.asks
  obtain ⟨rfl, rfl⟩ := hr.unique hr'
  have hv := (Orderly.run actions).unit_of_lockAccount hr hprogram
  rw [hunit] at hv
  cases hv
  rcases hcases with hheld | hlt
  · exact .inl (hj.held_lt hheld)
  · -- who is ahead in the queue of a lock asks for the same lock
    have hmem : (v, x) ∈ (run empty actions).store.waiting :=
      List.idxOf_lt_length_iff.mp (Nat.lt_of_lt_of_le hlt List.idxOf_le_length)
    obtain ⟨-, next', hprogram'⟩ := ((Queued.run actions).lines j t sus v hr hunit).waiting x hmem
    rw [hprogram] at hprogram'
    cases hprogram'
    exact .inr ⟨rfl, hlt⟩

theorem before_of_transGen (h : Relation.TransGen (run empty actions).WaitsFor i j)
    (hi : (run empty actions).Awaits i u x) (hj : (run empty actions).Awaits j v y) :
    (run empty actions).Before (u, x) (v, y) := by
  induction h generalizing v y with
  | single h => exact h.before hi hj
  | tail _ h ih =>
    obtain ⟨w, z, hk, -⟩ := id h
    exact (ih hk).trans (h.before hk hj)

theorem not_transGen_waitsFor (i : Nat) : ¬Relation.TransGen (run empty actions).WaitsFor i i := by
  intro h
  obtain ⟨j, ⟨u, x, hi, -⟩, -⟩ := Relation.TransGen.head'_iff.mp h
  exact Before.irrefl (before_of_transGen h hi hi)

/-! ## Somebody gets on -/

theorem Runs.advance_cases (hr : s.Runs i t sus) (now : Duration) (reading : Instant) :
    (∃ t', (s.advance i now reading).tasks[i]? = some t' ∧
      (t.history.length < t'.history.length ∨ ∃ outcome, t'.status = .ended outcome)) ∨
    ∃ c next phase t', sus.program = .call c next ∧
      s.backend.attempt now c sus.phase =
        .suspended phase (s.advance i now reading).backend ∧
      (s.advance i now reading).Runs i t' ⟨.call c next, phase, sus.unit⟩ ∧
      t'.history = t.history := by
  have ht := hr.advance_task now reading
  rcases sus.step_cases now reading s.backend with ⟨r, hprogram, hstep⟩ |
    ⟨next, hprogram, hstep⟩ | ⟨c, next, phase, b, hprogram, hattempt, hstep⟩ |
    ⟨c, next, r, b, hprogram, hattempt, hstep⟩
  all_goals rw [hstep] at ht
  · exact .inl ⟨_, ht, .inr ⟨_, rfl⟩⟩
  · exact .inl ⟨_, ht, .inl (by simp [Task.after, Move.telling])⟩
  · have hb : (s.advance i now reading).backend = b := by rw [hr.advance_eq, hstep]
    rw [hprogram] at ht
    exact .inr ⟨c, next, phase, _, hprogram, hb ▸ hattempt, ⟨ht, rfl⟩, by simp [Task.after]⟩
  · exact .inl ⟨_, ht, .inl (by simp [Task.after, Move.telling])⟩

theorem Runs.awaits (hr : s.Runs i t sus) {c : Call}
    {next : c.Reply → Program (Except Failure Answer)} (hprogram : sus.program = .call c next)
    {s' : Store} (h : s.store.respond c = .waits s') : ∃ u x, s.Awaits i u x := by
  obtain ⟨u, x, rfl, hheld, hlocked, -⟩ := Store.respond_waits h
  exact ⟨u, x, ⟨t, sus, next, hr, hprogram⟩, hheld, hlocked⟩

theorem Runs.getsOn (hr : s.Runs i t sus) (h : ¬∃ u x, s.Awaits i u x) : s.GetsOn i := by
  refine ⟨t, sus, hr, ?_⟩
  rcases hr.advance_cases ⟨0⟩ ⟨0, 0, by decide⟩ with ⟨t', ht', hfurther⟩ |
    ⟨c, next, phase, t₁, hprogram, hattempt, hr₁, hhistory⟩
  · exact ⟨[(⟨0⟩, ⟨0, 0, by decide⟩)], t', ht', hfurther⟩
  rcases Backend.attempt_suspended_cases hattempt with ⟨-, ⟨wake, rfl⟩, hstore⟩ | ⟨-, hwaits⟩
  · -- the call sleeps: a second step at its wake asks the store
    rcases hr₁.advance_cases wake ⟨0, 0, by decide⟩ with ⟨t', ht', hfurther⟩ |
      ⟨c', next', phase', t₂, hprogram', hattempt', -, -⟩
    · exact ⟨[(⟨0⟩, ⟨0, 0, by decide⟩), (wake, ⟨0, 0, by decide⟩)], t', ht', hhistory ▸ hfurther⟩
    · cases hprogram'
      have hdue := hattempt'
      simp only [Backend.attempt, Backend.enterAt, Nat.le_refl, if_true] at hdue
      have hwaits := (Backend.enter_suspended hdue).2
      rw [hstore] at hwaits
      exact absurd (hr.awaits hprogram hwaits) h
  · exact absurd (hr.awaits hprogram hwaits) h

/-- The chain of waits from a task ends with one that gets on, as the ids of the locks grow along
it. -/
theorem Awaits.exists_getsOn (h : (run empty actions).Awaits i u x) :
    ∃ j, (run empty actions).GetsOn j := by
  have hq := Queued.run actions
  have ho := Orderly.run actions
  induction hn : (9223372036854775808 - x.value).toNat using Nat.strongRecOn
    generalizing i u x with
  | _ n ih =>
    -- if the task of the holder waits as well, then for a larger id
    obtain ⟨v, hv⟩ := ho.sound.exists_holder h.locked
    obtain ⟨j, t, sus, hr, hunit⟩ := hq.owned v (Store.isOpen_of_mem_held hv)
    by_cases hj : ∃ w y, (run empty actions).Awaits j w y
    · obtain ⟨w, y, hj⟩ := hj
      obtain ⟨t', sus', next, hr', hprogram⟩ := hj.asks
      obtain ⟨rfl, rfl⟩ := hr.unique hr'
      cases hunit.symm.trans (ho.unit_of_lockAccount hr hprogram)
      have hlt := AccountId.lt_def.mp (hj.held_lt hv)
      have hbound := y.lt
      exact ih _ (by omega) hj rfl
    · exact ⟨j, hr.getsOn hj⟩

/-- In every run whoever stands in the queue of a lock waits there, a task that waits for the lock of
an account holds only locks of accounts with smaller ids, no task waits for itself over others, and
some task gets on as long as there is one that has not ended. -/
theorem deadlock_free (actions : List Action) :
    (∀ u x, (u, x) ∈ (run empty actions).store.waiting → ∃ i, (run empty actions).Awaits i u x) ∧
    (∀ i u x, (run empty actions).Awaits i u x →
      ∀ y ∈ ((run empty actions).store.unit u).held, y < x) ∧
    (∀ i, ¬Relation.TransGen (run empty actions).WaitsFor i i) ∧
    ((∃ i t sus, (run empty actions).Runs i t sus) → ∃ i, (run empty actions).GetsOn i) := by
  refine ⟨fun u x => exists_awaits, fun i u x h y => h.held_lt, not_transGen_waitsFor, ?_⟩
  rintro ⟨i, t, sus, hr⟩
  by_cases hi : ∃ u x, (run empty actions).Awaits i u x
  · obtain ⟨u, x, hi⟩ := hi
    exact hi.exists_getsOn
  · exact ⟨i, hr.getsOn hi⟩

/-! ## A transfer that waits with one lock -/

def txD : TransactionId := ⟨"tx-d", by simp [Text.Trimmed, Text.isBlank], by simp, by simp⟩

def txE : TransactionId := ⟨"tx-e", by simp [Text.Trimmed, Text.isBlank], by simp, by simp⟩

def idC : AccountId := ⟨3, by decide, by decide⟩

/-- Three accounts are opened, and two transfers begin, of which the second goes on from the
destination of the first. -/
def linked (t u : TransactionId) : List Action :=
  [opensWith txA idA ten, opensWith txB idB ten, opensWith txC idC ten,
    transfers t idA idB tenth, transfers u idB idC tenth] ++ steps 0 8 ++ steps 1 8 ++ steps 2 8

/-- The second transfer locks the shared account first; the other locks its source and waits. -/
def chained : List Action := linked txD txE ++ steps 4 4 ++ steps 3 5

theorem deadlock_free_chained :
    (⟨4⟩, idB) ∈ (run empty chained).store.waiting ∧
    idA ∈ ((run empty chained).store.unit ⟨4⟩).held ∧ idA < idB ∧
    (∃ i, (run empty chained).Awaits i ⟨4⟩ idB) ∧ ∃ i, (run empty chained).GetsOn i := by
  obtain ⟨hwaits, hlt, -, hgoes⟩ := deadlock_free chained
  have hqueue : (⟨4⟩, idB) ∈ (run empty chained).store.waiting := by decide +kernel
  have hheld : idA ∈ ((run empty chained).store.unit ⟨4⟩).held := by decide +kernel
  obtain ⟨i, hi⟩ := hwaits ⟨4⟩ idB hqueue
  obtain ⟨t, sus, next, hr, -⟩ := hi.asks
  exact ⟨hqueue, hheld, hlt i ⟨4⟩ idB hi idA hheld, ⟨i, hi⟩, hgoes ⟨i, t, sus, hr⟩⟩

end System

end Bookkeeping
