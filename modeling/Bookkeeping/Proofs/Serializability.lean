import Bookkeeping.Proofs.Idempotency
import Bookkeeping.Proofs.SoloRuns

/-! # Runs are serial in effect

As long as no two commands carry one transaction, a run has the same effect as its successful
commands alone, played one after the other in the order of their commits, each with the clock
readings that it made. Every one of them succeeds again and with the same answer.
-/
namespace Bookkeeping
open Bookkeeping.Time

def Task.turn (t : Task) : Turn := ⟨t.settings, t.command, t.readings⟩

def System.Action.transaction? : System.Action → Option TransactionId
  | .start _ command => command.transaction?
  | _ => none

theorem map_set_of_eq {α β : Type} {f : α → β} {l : List α} {i : Nat} {a a' : α}
    (hi : l[i]? = some a) (hf : f a' = f a) : (l.set i a').map f = l.map f := by
  obtain ⟨hlt, rfl⟩ := List.getElem?_eq_some_iff.mp hi
  apply List.ext_getElem?
  intro j
  by_cases hj : i = j
  · subst hj
    simp [hlt, hf]
  · simp [List.getElem?_set_ne hj]

namespace System

variable {s : System} {i j : Nat} {t t' : Task}

theorem map_command_step (s : System) (a : Action) :
    (s.step a).tasks.map (·.command) = s.tasks.map (·.command) ++
      match a with
      | .start _ command => [command]
      | _ => [] := by
  have hstop (j : Nat) (outcome : Task → Option Outcome) :
      (s.stop j outcome).tasks.map (·.command) = s.tasks.map (·.command) := by
    unfold stop
    split
    · rename_i t ht
      split
      · exact map_set_of_eq ht rfl
      · rfl
    · rfl
  cases a with
  | start settings command => simp [step, Task.begin]
  | advance j now reading =>
    rw [List.append_nil, step, advance]
    split
    · rename_i t ht
      split
      · exact map_set_of_eq ht rfl
      · rfl
    · rfl
  | timeOut j => rw [List.append_nil, step, hstop]
  | cancel j => rw [List.append_nil, step, hstop]
  | arm faults => simp [step]

theorem exists_command_run (ht : s.tasks[i]? = some t) (actions : List Action) :
    ∃ t', (s.run actions).tasks[i]? = some t' ∧ t'.command = t.command := by
  have hmap : ((s.run actions).tasks.map (·.command))[i]? = some t.command := by
    induction actions using List.reverseRecOn with
    | nil => simp [ht]
    | append_singleton actions a ih =>
      rw [run_concat, map_command_step, List.getElem?_append_left (List.getElem?_eq_some_iff.mp ih).1,
        ih]
  rw [List.getElem?_map] at hmap
  exact Option.map_eq_some_iff.mp hmap

theorem transactions_run (actions : List Action) :
    (run empty actions).tasks.filterMap (·.command.transaction?) =
      actions.filterMap Action.transaction? := by
  have hmap (s : System) : s.tasks.filterMap (·.command.transaction?) =
      (s.tasks.map (·.command)).filterMap Command.transaction? := by
    rw [List.filterMap_map]
    rfl
  induction actions using List.reverseRecOn with
  | nil => rfl
  | append_singleton actions a ih =>
    rw [run_concat, hmap, map_command_step, List.filterMap_append, ← hmap, ih,
      List.filterMap_append]
    cases a <;> rfl

theorem eq_of_transaction_eq {actions : List Action}
    (h : (actions.filterMap Action.transaction?).Nodup)
    (hi : (run empty actions).tasks[i]? = some t) (hj : (run empty actions).tasks[j]? = some t')
    {x : TransactionId} (ht : t.command.transaction? = some x)
    (ht' : t'.command.transaction? = some x) : i = j := by
  rw [← transactions_run, List.Nodup, List.pairwise_filterMap, List.pairwise_iff_getElem] at h
  obtain ⟨hilt, rfl⟩ := List.getElem?_eq_some_iff.mp hi
  obtain ⟨hjlt, rfl⟩ := List.getElem?_eq_some_iff.mp hj
  rcases Nat.lt_trichotomy i j with hlt | heq | hlt
  · exact absurd rfl (h i j hilt hjlt hlt x ht x ht')
  · exact heq
  · exact absurd rfl (h j i hjlt hilt hlt x ht' x ht)

/-- The tasks on record as committed, taken by themselves, have the effect of the run. -/
structure Serial (s : System) (done : List Task) (outcomes : List Outcome) (store : Store) : Prop where
  tasks : s.commits.map (s.tasks[·]?) = done.map some
  play : Turn.playAll (done.map Task.turn) {} = some (outcomes, store)
  outcomes : done.map Task.outcome? = outcomes.map some
  quiet : store.Quiet
  book : store.book = s.store.book
  recorded : ∀ d ∈ s.store.book.drafts, ∃ t ∈ done, t.command.transaction? = some d.transaction

theorem serial_empty : Serial empty [] [] {} where
  tasks := rfl
  play := rfl
  outcomes := rfl
  quiet := ⟨rfl, rfl⟩
  book := rfl
  recorded := by simp [Store.book, empty]

theorem Orderly.map_commits_step (h : s.Orderly) (a : Action) :
    s.commits.map ((s.step a).tasks[·]?) = s.commits.map (s.tasks[·]?) :=
  List.map_congr_left fun _ hi => h.committed_step hi a

theorem Serial.idle {done : List Task} {outcomes : List Outcome} {store : Store} {a : Action}
    (hs : s.Serial done outcomes store) (h : s.Orderly) (hi : s.Idle (s.step a)) :
    (s.step a).Serial done outcomes store := by
  have hbook := hi.book
  refine ⟨?_, hs.play, hs.outcomes, hs.quiet, ?_, ?_⟩
  · rw [hi.commits, h.map_commits_step, hs.tasks]
  · rw [hbook, hs.book]
  · rw [hbook]
    exact hs.recorded

theorem Serial.commits {done : List Task} {outcomes : List Outcome} {store : Store} {a : Action}
    {p : Posting} (hs : s.Serial done outcomes store) (h : s.Orderly)
    (hc : s.Commits i t p (s.step a))
    (hdistinct : ∀ j t', j ∈ s.commits → s.tasks[j]? = some t' →
      t'.command.transaction? ≠ t.command.transaction?) :
    ∃ done outcomes store, (s.step a).Serial done outcomes store := by
  have hunused : ∀ x, t.command.transaction? = some x →
      ∀ d ∈ store.book.drafts, d.transaction ≠ x := by
    rintro x hx d hd rfl
    rw [hs.book] at hd
    obtain ⟨t₀, ht₀, htx⟩ := hs.recorded d hd
    have hmem := List.mem_map_of_mem (f := some) ht₀
    rw [← hs.tasks] at hmem
    obtain ⟨j, hj, hget⟩ := List.mem_map.mp hmem
    exact hdistinct j t₀ hj hget (htx.trans hx.symm)
  have hp : t.command.Posts t.settings t.readings store.book p := hs.book ▸ hc.posts
  obtain ⟨store', hplay, hquiet, hbook⟩ := hp.play hs.quiet (hs.book ▸ h.reached.kept) hunused
  obtain ⟨t', ht', hend, hcommand, hsettings, hreadings⟩ := hc.exists_task
  have hturn : t'.turn = ⟨t.settings, t.command, t.readings⟩ := by
    rw [Task.turn, hcommand, hsettings, hreadings]
  have houtcome : t'.outcome? = some (.answered p.answer) := by
    rw [Task.outcome?, hend]
  refine ⟨done ++ [t'], outcomes ++ [.answered p.answer], store', ?_, ?_, ?_, hquiet, ?_, ?_⟩
  · rw [hc.commits, List.map_append, h.map_commits_step, hs.tasks, List.map_append]
    simp [ht']
  · rw [List.map_append]
    exact Turn.playAll_concat hs.play (hturn ▸ hplay)
  · rw [List.map_append, hs.outcomes, List.map_append]
    simp [houtcome]
  · rw [hbook, hc.book, hs.book]
  · rw [hc.book]
    intro d hd
    rcases List.mem_append.mp hd with hd | hd
    · obtain ⟨t₀, ht₀, htx⟩ := hs.recorded d hd
      exact ⟨t₀, List.mem_append_left _ ht₀, htx⟩
    · exact ⟨t', by simp, hcommand ▸ (hc.posts.draft hd).1⟩

theorem exists_serial (actions : List Action) (h : (actions.filterMap Action.transaction?).Nodup) :
    ∃ done outcomes store, (run empty actions).Serial done outcomes store := by
  induction actions using List.reverseRecOn with
  | nil => exact ⟨[], [], {}, serial_empty⟩
  | append_singleton actions a ih =>
    rw [List.filterMap_append] at h
    have hbefore := (List.nodup_append.mp h).1
    obtain ⟨done, outcomes, store, hs⟩ := ih hbefore
    have horderly := Orderly.run actions
    rw [run_concat]
    rcases (horderly.step a).2 with hidle | ⟨i, now, reading, t, p, -, hc⟩
    · exact ⟨done, outcomes, store, hs.idle horderly hidle⟩
    · apply hs.commits horderly hc
      intro j t' hj ht' he
      obtain ⟨sus, hr⟩ := hc.runs
      obtain ⟨x, hx⟩ := hc.posts.exists_transaction
      have hij := eq_of_transaction_eq hbefore ht' hr.task (he.trans hx) hx
      exact horderly.not_mem_commits hr (hij ▸ hj)

/-- If no two commands carry one transaction, then the successful commands that write, taken in the
order of their commits and played by themselves from an empty store with the readings that they
made, have the same outcomes and leave the same rows and streams. -/
theorem serializable (actions : List Action) (h : (actions.filterMap Action.transaction?).Nodup) :
    (run empty actions).commits.Nodup ∧
    (∀ i, i ∈ (run empty actions).commits ↔ ∃ t, (run empty actions).tasks[i]? = some t ∧
      t.command.transaction? ≠ none ∧ t.Succeeded) ∧
    ∃ (done : List Task) (outcomes : List Outcome) (store : Store),
      (run empty actions).commits.map ((run empty actions).tasks[·]?) = done.map some ∧
      Turn.playAll (done.map Task.turn) Store.empty = some (outcomes, store) ∧
      done.map Task.outcome? = outcomes.map some ∧
      store.rows = (run empty actions).store.rows ∧
      ∀ id, (store.entriesFor id).map (·.toDraft) =
        ((run empty actions).store.entriesFor id).map (·.toDraft) := by
  have horderly := Orderly.run actions
  obtain ⟨done, outcomes, store, hs⟩ := exists_serial actions h
  refine ⟨horderly.nodup, horderly.mem_commits_iff, done, outcomes, store, hs.tasks, hs.play,
    hs.outcomes, congrArg Book.rows hs.book, fun id => ?_⟩
  rw [Store.map_toDraft_entriesFor (hs.book ▸ horderly.reached.kept),
    Store.map_toDraft_entriesFor horderly.reached.kept, hs.book]

theorem serializable_overlapping :
    ((overlapping txA txB).filterMap Action.transaction?).Nodup ∧
    (run empty (overlapping txA txB)).commits = [1, 0] ∧
    ∃ (done : List Task) (outcomes : List Outcome) (store : Store),
      [1, 0].map ((run empty (overlapping txA txB)).tasks[·]?) = done.map some ∧
      Turn.playAll (done.map Task.turn) Store.empty = some (outcomes, store) ∧
      done.map Task.outcome? = outcomes.map some ∧
      store.rows = (run empty (overlapping txA txB)).store.rows := by
  have hdistinct : ((overlapping txA txB).filterMap Action.transaction?).Nodup := by decide
  have hcommits : (run empty (overlapping txA txB)).commits = [1, 0] := by decide +kernel
  obtain ⟨-, -, done, outcomes, store, htasks, hplay, houtcomes, hrows, -⟩ :=
    serializable (overlapping txA txB) hdistinct
  rw [hcommits] at htasks
  exact ⟨hdistinct, hcommits, done, outcomes, store, htasks, hplay, houtcomes, hrows⟩

end System

end Bookkeeping
