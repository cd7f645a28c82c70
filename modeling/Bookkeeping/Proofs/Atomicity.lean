import Bookkeeping.Proofs.Orderly

/-! # All or nothing

Each action leaves what is committed as it is, with one exception: the commit of a task that creates
or transfers. This commit adds the two events of the command at the ends of the streams, replaces the
rows of the accounts that the command names, and ends the task with its success.
-/
namespace Bookkeeping
open Bookkeeping.Time

/-- What the success of a command changes in a store, account by account. -/
inductive Command.Lands (settings : Settings) (s s' : Store) : Command → Answer → Prop where
  | opening {request : Request} {id : AccountId} {initial : Amount} {now : Instant}
      {opened deposited : Entry}
      (new : findRow id s.rows = none ∧ s.entriesFor id = [])
      (first : opened.toDraft = request.draft settings id .first (.opened initial))
      (second : deposited.toDraft =
        request.draft settings id .second (.deposited Workflow.systemSource initial))
      (entries : s'.entries = s.entries ++ [opened, deposited])
      (row : findRow id s'.rows = some (.opened id initial now))
      (stream : s'.entriesFor id = [opened, deposited])
      (others : ∀ other, other ≠ id →
        findRow other s'.rows = findRow other s.rows ∧ s'.entriesFor other = s.entriesFor other) :
      Lands settings s s' (.create request id initial) (.account (.opened id initial now))
  | movement {request : Request} {source destination : AccountId} {amount : Amount} {now : Instant}
      {a c a' c' : Account} {n m : SequenceNumber} {debited credited : Entry}
      (ne : source ≠ destination)
      (old : findRow source s.rows = some a ∧ findRow destination s.rows = some c)
      (debit : a.debited amount now = .ok a') (credit : c.credited amount now = .ok c')
      (first : debited.toDraft = request.draft settings source n (.debited destination amount))
      (second : credited.toDraft =
        request.draft settings destination m (.credited source amount))
      (entries : s'.entries = s.entries ++ [debited, credited])
      (rows : findRow source s'.rows = some a' ∧ findRow destination s'.rows = some c')
      (streams : s'.entriesFor source = s.entriesFor source ++ [debited] ∧
        s'.entriesFor destination = s.entriesFor destination ++ [credited])
      (others : ∀ other, other ≠ source → other ≠ destination →
        findRow other s'.rows = findRow other s.rows ∧ s'.entriesFor other = s.entriesFor other) :
      Lands settings s s' (.transfer request source destination amount) .transferred

namespace Store

variable {s s' : Store}

theorem exists_pair {new : List Entry} {d d' : Draft} (h : new.map (·.toDraft) = [d, d']) :
    ∃ e e' : Entry, new = [e, e'] ∧ e.toDraft = d ∧ e'.toDraft = d' := by
  obtain ⟨e, rest, rfl, he, hrest⟩ := List.map_eq_cons_iff.mp h
  obtain ⟨e', rest, rfl, he', hrest⟩ := List.map_eq_cons_iff.mp hrest
  rw [List.map_eq_nil_iff.mp hrest]
  exact ⟨e, e', rfl, he, he'⟩

theorem entriesFor_append (h : s.book.Kept) (h' : s'.book.Kept) {new : List Entry}
    (hentries : s'.entries = s.entries ++ new) (id : AccountId) :
    s'.entriesFor id = s.entriesFor id ++ new.filter fun e => e.account = id := by
  rw [entriesFor_eq_filter h, entriesFor_eq_filter h', hentries, List.filter_append]

end Store

theorem Command.Posts.lands {settings : Settings} {command : Command} {readings : List Instant}
    {s s' : Store} {p : Posting} (h : command.Posts settings readings s.book p) (hk : s.book.Kept)
    (hrows : s'.rows = p.rows.foldr putRow s.rows) {new : List Entry}
    (hentries : s'.entries = s.entries ++ new) (hnew : new.map (·.toDraft) = p.drafts) :
    command.Lands settings s s' p.answer := by
  have hbook : s'.book = s.book.post p := by
    rw [Store.book, hrows, hentries, List.map_append, hnew]
    rfl
  have hk' : s'.book.Kept := hbook ▸ hk.post h
  have hstream := Store.entriesFor_append hk hk' hentries
  have hrow (id : AccountId) : findRow id s'.rows = (s.book.post p).row id := by
    rw [← hbook]
    rfl
  have hother {id : AccountId} (hid : id ∉ command.accounts) :
      findRow id s'.rows = findRow id s.rows := (hrow id).trans (h.row_of_not_mem hid)
  cases h with
  | @opening request id initial now _ _ hnone hnil =>
    obtain ⟨e, e', rfl, he, he'⟩ := Store.exists_pair hnew
    have hacc : e.account = id := congrArg Draft.account he
    have hacc' : e'.account = id := congrArg Draft.account he'
    have hempty : s.entriesFor id = [] := by
      rw [← List.map_eq_nil_iff, Store.map_toDraft_entriesFor hk, hnil]
    refine .opening ⟨hnone, hempty⟩ he he' hentries ?_ ?_ fun other hne => ⟨hother ?_, ?_⟩
    · rw [hrow, Book.row_post_opening, if_pos rfl]
    · rw [hstream, hempty]
      simp [hacc, hacc']
    · simpa [accounts] using hne
    · rw [hstream]
      simp [hacc, hacc', Ne.symm hne]
  | @movement request source destination amount checked now _ a c a' c' n m _ hne hsource
      hdestination hdebit hcredit hn hm =>
    obtain ⟨e, e', rfl, he, he'⟩ := Store.exists_pair hnew
    have hacc : e.account = source := congrArg Draft.account he
    have hacc' : e'.account = destination := congrArg Draft.account he'
    have hda := (Account.debit_id hdebit).trans (Book.row_id hsource)
    have hca := (Account.credit_id hcredit).trans (Book.row_id hdestination)
    refine .movement hne ⟨hsource, hdestination⟩ hdebit hcredit he he' hentries ⟨?_, ?_⟩ ⟨?_, ?_⟩
      fun other hs hd => ⟨hother ?_, ?_⟩
    · rw [hrow, Book.row_post_movement _ _ _ _ hda hca, if_neg (Ne.symm hne), if_pos rfl]
    · rw [hrow, Book.row_post_movement _ _ _ _ hda hca, if_pos rfl]
    · rw [hstream]
      simp [hacc, hacc', Ne.symm hne]
    · rw [hstream]
      simp [hacc, hacc', hne]
    · simp [accounts, hs, hd]
    · rw [hstream]
      simp [hacc, hacc', Ne.symm hs, Ne.symm hd]

namespace System

variable {s : System} {i : Nat} {t : Task} {actions : List Action}

/-- An action is the commit of a task, which takes its full effect and ends the task with its
success. -/
structure Lands (s : System) (a : Action) (i : Nat) (answer : Answer) : Prop where
  commits : (s.step a).commits = s.commits ++ [i]
  task : ∃ t sus, s.Runs i t sus ∧ t.command.Lands t.settings s.store (s.step a).store answer ∧
    ∃ history, (s.step a).tasks[i]? =
      some { t with history := history, status := .ended (some (.answered answer)) }

theorem Commits.lands {a : Action} {p : Posting} (h : s.Orderly) (hc : s.Commits i t p (s.step a)) :
    s.Lands a i p.answer := by
  obtain ⟨sus, hr⟩ := hc.runs
  obtain ⟨new, hentries, hnew⟩ := hc.entries
  obtain ⟨u, htasks⟩ := hc.tasks
  refine ⟨hc.commits, t, sus, hr, hc.posts.lands h.reached.kept hc.rows hentries hnew,
    t.history ++ [.replied (.commit u) (.ok ())], ?_⟩
  rw [htasks, List.getElem?_set_self (List.getElem?_eq_some_iff.mp hr.task).1]

theorem ended_step (ht : s.tasks[i]? = some t) {outcome : Option Outcome}
    (hend : t.status = .ended outcome) (a : Action) : (s.step a).tasks[i]? = some t := by
  have hset {j : Nat} {t₁ t₂ : Task} {sus : Suspended (Except Failure Answer)}
      (hj : s.tasks[j]? = some t₁) (hrun : t₁.status = .running sus) :
      (s.tasks.set j t₂)[i]? = some t := by
    have hne : j ≠ i := by
      rintro rfl
      rw [ht] at hj
      cases hj
      rw [hend] at hrun
      cases hrun
    rw [List.getElem?_set_ne hne, ht]
  have hstop (j : Nat) (outcome : Task → Option Outcome) :
      (s.stop j outcome).tasks[i]? = some t := by
    unfold stop
    split
    · rename_i t₁ hj
      split
      · rename_i sus hrun
        exact hset hj hrun
      · exact ht
    · exact ht
  cases a with
  | start settings command =>
    exact (List.getElem?_append_left (List.getElem?_eq_some_iff.mp ht).1).trans ht
  | advance j now reading =>
    rw [step, advance]
    split
    · rename_i t₁ hj
      split
      · rename_i sus hrun
        exact hset hj hrun
      · exact ht
    · exact ht
  | timeOut j => exact hstop j _
  | cancel j => exact hstop j _
  | arm faults => exact ht

theorem ended_run (ht : s.tasks[i]? = some t) {outcome : Option Outcome}
    (hend : t.status = .ended outcome) (actions : List Action) :
    (s.run actions).tasks[i]? = some t := by
  induction actions using List.reverseRecOn with
  | nil => exact ht
  | append_singleton actions a ih =>
    rw [run_concat]
    exact ended_step ih hend a

theorem Orderly.committed_step (h : s.Orderly) (hi : i ∈ s.commits) (a : Action) :
    (s.step a).tasks[i]? = s.tasks[i]? := by
  obtain ⟨t, ht, hend⟩ := (h.committed i).mp hi
  cases hstatus : t.status with
  | running sus =>
    rw [((h.tasks i t ht).steady hstatus).active] at hend
    cases hend
  | ended outcome => rw [ended_step ht hstatus a, ht]

theorem exists_lands (hi : i ∈ (run empty actions).commits) :
    ∃ before a after answer, actions = before ++ a :: after ∧
      (run empty before).Lands a i answer := by
  induction actions using List.reverseRecOn with
  | nil => cases hi
  | append_singleton actions a ih =>
    rw [run_concat] at hi
    have horderly := Orderly.run actions
    rcases (horderly.step a).2 with hidle | ⟨j, now, reading, t, p, -, hc⟩
    · rw [hidle.commits] at hi
      obtain ⟨before, b, after, answer, rfl, hl⟩ := ih hi
      exact ⟨before, b, after ++ [a], answer, by simp, hl⟩
    · rw [hc.commits, List.mem_append, List.mem_singleton] at hi
      rcases hi with hi | rfl
      · obtain ⟨before, b, after, answer, rfl, hl⟩ := ih hi
        exact ⟨before, b, after ++ [a], answer, by simp, hl⟩
      · exact ⟨actions, a, [], p.answer, rfl, hc.lands horderly⟩

theorem Orderly.mem_commits_iff (h : s.Orderly) (i : Nat) :
    i ∈ s.commits ↔ ∃ t, s.tasks[i]? = some t ∧ t.command.transaction? ≠ none ∧ t.Succeeded := by
  rw [h.committed]
  refine exists_congr fun t => and_congr_right fun ht => ?_
  have horder := h.tasks i t ht
  cases hstatus : t.status with
  | running sus =>
    have hactive := (horder.steady hstatus).active
    simp [hactive, Task.Succeeded, hstatus]
  | ended outcome =>
    rw [Task.InOrder, hstatus] at horder
    rcases horder with ⟨r, rfl, hends⟩ | ⟨hnone, hnot⟩
    · cases r with
      | ok answer =>
        rcases hends with ⟨hcommand, hnone⟩ | ⟨hcommitted, p, hready, -⟩
        · simp [hcommand, hnone]
        · simpa [hcommitted, Task.Succeeded, hstatus, Outcome.ofResult] using
            hready.transaction_ne_none
      | error why => simpa [Task.Succeeded, hstatus, Outcome.ofResult] using hends.1
    · have hnot' : ¬∃ a, outcome = some (.answered a) := not_exists.mpr hnot
      simp [hnone, Task.Succeeded, hstatus, hnot']

theorem Orderly.succeeded_iff (h : s.Orderly) (ht : s.tasks[i]? = some t)
    (hw : t.command.transaction? ≠ none) : t.Succeeded ↔ i ∈ s.commits := by
  rw [h.mem_commits_iff]
  constructor
  · exact fun hs => ⟨t, ht, hw, hs⟩
  · rintro ⟨t', ht', -, hs⟩
    rw [ht] at ht'
    cases ht'
    exact hs

/-- In every run each action changes nothing that is committed, or it is the commit of a task that
takes its full effect and then succeeds; and a command that writes has succeeded if and only if there
was such an action. -/
theorem all_or_nothing (actions : List Action) :
    (∀ a, (run empty actions).Idle ((run empty actions).step a) ∨
      ∃ i answer, (run empty actions).Lands a i answer) ∧
    ∀ (i : Nat) (t : Task), (run empty actions).tasks[i]? = some t →
      t.command.transaction? ≠ none →
      (t.Succeeded ↔ ∃ before a after answer, actions = before ++ a :: after ∧
        (run empty before).Lands a i answer) := by
  have horderly := Orderly.run actions
  refine ⟨fun a => ?_, fun i t ht hw => ?_⟩
  · rcases (horderly.step a).2 with hidle | ⟨i, now, reading, t, p, -, hc⟩
    · exact .inl hidle
    · exact .inr ⟨i, p.answer, hc.lands horderly⟩
  · rw [horderly.succeeded_iff ht hw]
    constructor
    · exact exists_lands
    · rintro ⟨before, a, after, answer, rfl, hl⟩
      obtain ⟨t', sus, hr, -, history, ht'⟩ := hl.task
      have hrun : run empty (before ++ a :: after) = ((run empty before).step a).run after := by
        rw [run_append]
        rfl
      rw [← horderly.succeeded_iff ht hw]
      rw [hrun, ended_run ht' rfl after] at ht
      cases ht
      exact ⟨answer, rfl⟩

end System

end Bookkeeping
