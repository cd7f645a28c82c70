import Bookkeeping.Proofs.Serializability

/-! # What becomes of tasks

A task keeps its command and its settings, and what it was told stays told. What is recorded was
recorded by a task that has committed, under the transaction of its command.
-/
namespace Bookkeeping
open Bookkeeping.Time

structure Task.Continues (t t' : Task) : Prop where
  settings : t'.settings = t.settings
  command : t'.command = t.command
  history : t.history <+: t'.history

namespace Task.Continues

variable {t t' t'' : Task}

theorem refl (t : Task) : t.Continues t := ⟨rfl, rfl, List.prefix_refl _⟩

theorem trans (h : t.Continues t') (h' : t'.Continues t'') : t.Continues t'' :=
  ⟨h'.settings.trans h.settings, h'.command.trans h.command, h.history.trans h'.history⟩

theorem readings (h : t.Continues t') : t.readings ⊆ t'.readings :=
  (h.history.filterMap _).subset

end Task.Continues

namespace System

variable {s : System} {i : Nat} {t t' : Task} {a : Action}

theorem task_of_stop {j : Nat} {outcome : Task → Option Outcome}
    (ht : (s.stop j outcome).tasks[i]? = some t') :
    s.tasks[i]? = some t' ∨
      ∃ t sus, j = i ∧ s.Runs i t sus ∧ t' = { t with status := .ended (outcome t) } := by
  by_cases hr : ∃ t sus, s.Runs j t sus
  · obtain ⟨t, sus, hr⟩ := hr
    rw [hr.stop_eq] at ht
    by_cases hj : j = i
    · subst hj
      rw [List.getElem?_set_self (List.getElem?_eq_some_iff.mp hr.task).1] at ht
      exact .inr ⟨t, sus, rfl, hr, (Option.some.inj ht).symm⟩
    · rw [List.getElem?_set_ne hj] at ht
      exact .inl ht
  · rw [stop_of_not_runs hr] at ht
    exact .inl ht

/-- A task after an action was there before it, begins with it, made the step, or was stopped. -/
theorem task_of_step (ht : (s.step a).tasks[i]? = some t') :
    s.tasks[i]? = some t' ∨
    (∃ settings command, i = s.tasks.length ∧ t' = .begin settings command) ∨
    (∃ now reading t sus, a = .advance i now reading ∧ s.Runs i t sus ∧
      t' = t.after (sus.step now reading s.backend)) ∨
    ∃ t sus outcome, (a = .timeOut i ∨ a = .cancel i) ∧ s.Runs i t sus ∧
      t' = { t with status := .ended outcome } := by
  cases a with
  | start settings command =>
    rw [step, List.getElem?_append] at ht
    split at ht
    · exact .inl ht
    · rename_i hi
      obtain ⟨hlt, he⟩ := List.getElem?_eq_some_iff.mp ht
      rw [List.length_singleton] at hlt
      rw [List.getElem_singleton] at he
      exact .inr (.inl ⟨settings, command, by omega, he.symm⟩)
  | advance j now reading =>
    by_cases hr : ∃ t sus, s.Runs j t sus
    · obtain ⟨t, sus, hr⟩ := hr
      by_cases hj : j = i
      · subst hj
        rw [step, hr.advance_task] at ht
        exact .inr (.inr (.inl ⟨now, reading, t, sus, rfl, hr, (Option.some.inj ht).symm⟩))
      · rw [step, hr.advance_other now reading hj] at ht
        exact .inl ht
    · rw [step, advance_of_not_runs hr] at ht
      exact .inl ht
  | timeOut j =>
    rcases task_of_stop ht with ht | ⟨t, sus, rfl, hr, he⟩
    · exact .inl ht
    · exact .inr (.inr (.inr ⟨t, sus, _, .inl rfl, hr, he⟩))
  | cancel j =>
    rcases task_of_stop ht with ht | ⟨t, sus, rfl, hr, he⟩
    · exact .inl ht
    · exact .inr (.inr (.inr ⟨t, sus, _, .inr rfl, hr, he⟩))
  | arm faults => exact .inl ht

theorem exists_continues_step (ht : s.tasks[i]? = some t) (a : Action) :
    ∃ t', (s.step a).tasks[i]? = some t' ∧ t.Continues t' := by
  obtain ⟨t', ht', -⟩ := exists_command_run ht [a]
  have ht' : (s.step a).tasks[i]? = some t' := ht'
  refine ⟨t', ht', ?_⟩
  rcases task_of_step ht' with hold | ⟨settings, command, hi, -⟩ | ⟨now, reading, t₀, sus, -, hr, rfl⟩ |
    ⟨t₀, sus, outcome, -, hr, rfl⟩
  · rw [ht] at hold
    cases hold
    exact .refl t
  · have hlt := (List.getElem?_eq_some_iff.mp ht).1
    omega
  · rw [hr.task] at ht
    cases ht
    exact ⟨rfl, rfl, List.prefix_append _ _⟩
  · rw [hr.task] at ht
    cases ht
    exact ⟨rfl, rfl, List.prefix_refl _⟩

theorem exists_continues (ht : s.tasks[i]? = some t) (actions : List Action) :
    ∃ t', (s.run actions).tasks[i]? = some t' ∧ t.Continues t' := by
  induction actions using List.reverseRecOn with
  | nil => exact ⟨t, ht, .refl t⟩
  | append_singleton actions a ih =>
    obtain ⟨t', ht', hc⟩ := ih
    obtain ⟨t'', ht'', hc'⟩ := exists_continues_step ht' a
    rw [run_concat]
    exact ⟨t'', ht'', hc.trans hc'⟩

/-- What is recorded carries the transaction of a task that has committed. -/
theorem exists_author (actions : List Action) {d : Draft}
    (hd : d ∈ (run empty actions).store.book.drafts) :
    ∃ i ∈ (run empty actions).commits, ∃ t, (run empty actions).tasks[i]? = some t ∧
      t.command.transaction? = some d.transaction := by
  induction actions using List.reverseRecOn with
  | nil => cases hd
  | append_singleton actions a ih =>
    rw [run_concat] at hd ⊢
    have ho := Orderly.run actions
    rcases (ho.step a).2 with hidle | ⟨i, now, reading, t, p, -, hc⟩
    · rw [hidle.book] at hd
      obtain ⟨i, hi, t, ht, htx⟩ := ih hd
      exact ⟨i, hidle.commits ▸ hi, t, (ho.committed_step hi a).trans ht, htx⟩
    · rw [hc.book] at hd
      rcases List.mem_append.mp hd with hd | hd
      · obtain ⟨j, hj, t', ht', htx⟩ := ih hd
        refine ⟨j, ?_, t', (ho.committed_step hj a).trans ht', htx⟩
        rw [hc.commits]
        exact List.mem_append_left _ hj
      · obtain ⟨t₁, ht₁, -, hcommand, -⟩ := hc.exists_task
        refine ⟨i, ?_, t₁, ht₁, ?_⟩
        · rw [hc.commits]
          exact List.mem_append_right _ (List.mem_singleton_self i)
        · rw [hcommand]
          exact (hc.posts.draft hd).1

end System

end Bookkeeping
