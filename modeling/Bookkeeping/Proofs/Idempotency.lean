import Bookkeeping.Proofs.Lookups

/-! # Transactions on one account

A transfer looks its transaction up once more under its locks, and an opening commits only to an
account without a stream. Two commands of one transaction that share an account therefore do not both
commit. Two that share none may, if each looks before the other commits.
-/
namespace Bookkeeping
open Bookkeeping.Time

namespace System

variable {s s' : System} {i j : Nat} {t t' : Task} {sus sus' : Suspended (Except Failure Answer)}
  {now : Duration} {reading : Instant} {x : TransactionId} {p p' : Posting} {id : AccountId}

/-- What is recorded of the transaction of a task on its accounts is its own posting. -/
structure Wrote (s : System) (i : Nat) (t : Task) (p : Posting) : Prop where
  task : s.tasks[i]? = some t
  posts : ∃ b, t.command.Posts t.settings t.readings b p
  stream : ∀ id ∈ t.command.accounts,
    (s.store.book.stream id).filter (fun d => t.command.transaction? = some d.transaction) =
      p.drafts.filter fun d => d.account = id

theorem Wrote.exists_draft (h : s.Wrote i t p) (hid : id ∈ t.command.accounts) :
    ∃ d ∈ s.store.book.stream id, t.command.transaction? = some d.transaction := by
  obtain ⟨b, hp⟩ := h.posts
  obtain ⟨d, hd, hacc⟩ := hp.exists_draft hid
  have hmem : d ∈ p.drafts.filter fun d => d.account = id := List.mem_filter.mpr ⟨hd, by simpa⟩
  rw [← h.stream id hid] at hmem
  obtain ⟨hin, htx⟩ := List.mem_filter.mp hmem
  exact ⟨d, hin, by simpa using htx⟩

/-- What is recorded on an account was written by one committed task for each transaction. -/
structure Apart (s : System) : Prop where
  wrote : ∀ i ∈ s.commits, ∃ t p, s.Wrote i t p
  recorded : ∀ d ∈ s.store.book.drafts, ∃ i ∈ s.commits, ∃ t, s.tasks[i]? = some t ∧
    t.command.transaction? = some d.transaction ∧ d.account ∈ t.command.accounts
  disjoint : ∀ i ∈ s.commits, ∀ j ∈ s.commits, i ≠ j → ∀ t t', s.tasks[i]? = some t →
    s.tasks[j]? = some t' → t.command.transaction? = t'.command.transaction? →
    t.command.accounts.Disjoint t'.command.accounts

theorem apart_empty : Apart empty where
  wrote := by simp [empty]
  recorded := by simp [empty, Store.book]
  disjoint := by simp [empty]

theorem Apart.idle (h : s.Apart) (ho : s.Orderly) {a : Action} (hi : s.Idle (s.step a)) :
    (s.step a).Apart := by
  refine ⟨fun i hmem => ?_, fun d hd => ?_, fun i hmem j hmem' hne t t' ht ht' => ?_⟩
  · rw [hi.commits] at hmem
    obtain ⟨t, p, hw⟩ := h.wrote i hmem
    refine ⟨t, p, (ho.committed_step hmem a).trans hw.task, hw.posts, ?_⟩
    rw [hi.book]
    exact hw.stream
  · rw [hi.book] at hd
    obtain ⟨i, hmem, t, ht, hrest⟩ := h.recorded d hd
    rw [hi.commits]
    exact ⟨i, hmem, t, (ho.committed_step hmem a).trans ht, hrest⟩
  · rw [hi.commits] at hmem hmem'
    rw [ho.committed_step hmem] at ht
    rw [ho.committed_step hmem'] at ht'
    exact h.disjoint i hmem j hmem' hne t t' ht ht'

theorem Plain.disjoint (h : s.Plain) (ho : s.Orderly) (hc : s.Commits i t p s')
    (hw : s.Wrote j t' p') (he : t'.command.transaction? = t.command.transaction?) :
    t'.command.accounts.Disjoint t.command.accounts := by
  intro id hid' hid
  obtain ⟨d, hd, htx⟩ := hw.exists_draft hid'
  exact h.unrecorded ho hc hid hd (he.symm.trans htx)

theorem Wrote.commits (hw : s.Wrote j t' p') (h : s.Plain) (ho : s.Orderly)
    (hc : s.Commits i t p s') (hj : s'.tasks[j]? = some t') : s'.Wrote j t' p' := by
  refine ⟨hj, hw.posts, ?_⟩
  intro id hid
  rw [hc.book, Book.stream_post, List.filter_append, hw.stream id hid, List.append_right_eq_self,
    List.filter_eq_nil_iff]
  intro d hd htx
  obtain ⟨hd, hacc⟩ := List.mem_filter.mp hd
  obtain ⟨htx', hacc'⟩ := hc.posts.draft hd
  rw [decide_eq_true_eq] at htx hacc
  exact h.disjoint ho hc hw (htx.trans htx'.symm) hid (hacc ▸ hacc')

theorem Plain.wrote (h : s.Plain) (ho : s.Orderly) (hc : s.Commits i t p s')
    (ht' : s'.tasks[i]? = some t') (hcommand : t'.command = t.command)
    (hsettings : t'.settings = t.settings) (hreadings : t'.readings = t.readings) :
    s'.Wrote i t' p := by
  refine ⟨ht', ⟨s.store.book, ?_⟩, fun id hid => ?_⟩
  · rw [hcommand, hsettings, hreadings]
    exact hc.posts
  · rw [hcommand] at hid ⊢
    have hnone : (s.store.book.stream id).filter
        (fun d => t.command.transaction? = some d.transaction) = [] := by
      apply List.filter_eq_nil_iff.mpr
      intro d hd htx
      rw [decide_eq_true_eq] at htx
      exact h.unrecorded ho hc hid hd htx
    rw [hc.book, Book.stream_post, List.filter_append, hnone, List.nil_append]
    apply List.filter_eq_self.mpr
    intro d hd
    rw [decide_eq_true_eq]
    exact (hc.posts.draft (List.mem_filter.mp hd).1).1

theorem Apart.commits (h : s.Apart) (hplain : s.Plain) (ho : s.Orderly) {a : Action}
    (hc : s.Commits i t p (s.step a)) : (s.step a).Apart := by
  obtain ⟨t₁, ht₁, -, hcommand, hsettings, hreadings⟩ := hc.exists_task
  have hself : (s.step a).Wrote i t₁ p := hplain.wrote ho hc ht₁ hcommand hsettings hreadings
  have hold {j : Nat} (hj : j ∈ s.commits) : ∃ t' p', s.Wrote j t' p' ∧ (s.step a).Wrote j t' p' := by
    obtain ⟨t', p', hw⟩ := h.wrote j hj
    exact ⟨t', p', hw, hw.commits hplain ho hc ((ho.committed_step hj a).trans hw.task)⟩
  -- the accounts of the new task against those of one on record
  have hdisjoint {j : Nat} (hj : j ∈ s.commits) {t' : Task} (ht' : (s.step a).tasks[j]? = some t')
      (he : t'.command.transaction? = t₁.command.transaction?) :
      t'.command.accounts.Disjoint t₁.command.accounts := by
    obtain ⟨t'', p', hw, -⟩ := hold hj
    rw [ho.committed_step hj, hw.task] at ht'
    cases ht'
    rw [hcommand] at he ⊢
    exact hplain.disjoint ho hc hw he
  refine ⟨fun j hmem => ?_, fun d hd => ?_, fun j hmem j' hmem' hne t t' ht ht' he => ?_⟩
  · rw [hc.commits, List.mem_append, List.mem_singleton] at hmem
    rcases hmem with hj | rfl
    · obtain ⟨t', p', -, hw⟩ := hold hj
      exact ⟨t', p', hw⟩
    · exact ⟨t₁, p, hself⟩
  · rw [hc.commits]
    rw [hc.book] at hd
    rcases List.mem_append.mp hd with hd | hd
    · obtain ⟨j, hj, t', ht', hrest⟩ := h.recorded d hd
      exact ⟨j, List.mem_append_left _ hj, t', (ho.committed_step hj a).trans ht', hrest⟩
    · refine ⟨i, by simp, t₁, ht₁, ?_⟩
      rw [hcommand]
      exact hc.posts.draft hd
  · rw [hc.commits, List.mem_append, List.mem_singleton] at hmem hmem'
    rcases hmem with hj | rfl <;> rcases hmem' with hj' | rfl
    · rw [ho.committed_step hj] at ht
      rw [ho.committed_step hj'] at ht'
      exact h.disjoint j hj j' hj' hne t t' ht ht' he
    · rw [ht₁] at ht'
      cases ht'
      exact hdisjoint hj ht he
    · rw [ht₁] at ht
      cases ht
      exact fun id hid hid' => hdisjoint hj' ht' he.symm hid' hid
    · exact absurd rfl hne

theorem Apart.run {actions : List Action} (h : ∀ a ∈ actions, a.arms = false) :
    (System.run empty actions).Apart := by
  induction actions using List.reverseRecOn with
  | nil => exact apart_empty
  | append_singleton actions a ih =>
    rw [run_concat]
    have hbefore : ∀ b ∈ actions, b.arms = false := fun b hb => h b (List.mem_append_left _ hb)
    have ho := Orderly.run actions
    rcases (ho.step a).2 with hidle | ⟨i, now, reading, t, p, -, hc⟩
    · exact (ih hbefore).idle ho hidle
    · exact (ih hbefore).commits (Plain.run hbefore) ho hc

/-! ## Lookups of a recorded transaction -/

def Recorded (s : System) (x : TransactionId) : Prop := ∃ e ∈ s.store.entries, e.transaction = x

theorem Recorded.step (h : s.Recorded x) (ho : s.Orderly) (a : Action) : (s.step a).Recorded x := by
  obtain ⟨e, he, hx⟩ := h
  rcases (ho.step a).2 with hidle | ⟨i, now, reading, t, p, -, hc⟩
  · exact ⟨e, hidle.entries ▸ he, hx⟩
  · obtain ⟨new, hentries, -⟩ := hc.entries
    exact ⟨e, hentries ▸ List.mem_append_left _ he, hx⟩

end System

def Program.LooksUp {α : Type} (x : TransactionId) : Program α → Prop
  | .call (.findByTransaction y) _ | .call (.findByTransactionIn _ y) _ => y = x
  | _ => False

theorem Command.eq_done_of_recorded {settings : Settings} {command : Command} {k : Knowledge}
    {p : Program (Except Failure Answer)} (h : p.Obeys .conduct (command.Ends settings) k)
    (hk : k.ending = some .recorded) {x : TransactionId} (hx : k.transaction = some x) :
    p = .done (.error (.rejected (.alreadyRecorded x))) := by
  cases p with
  | done r =>
    cases r with
    | ok answer =>
      rcases h with ⟨-, hnone⟩ | ⟨hcommitted, -⟩
      · rw [hk] at hnone
        cases hnone
      · rw [hk] at hcommitted
        cases hcommitted
    | error why =>
      obtain ⟨y, hy, rfl⟩ := h.2 hk
      rw [hx] at hy
      cases hy
      rfl
  | call c next =>
    rw [h.1.1] at hk
    cases hk
  | clock next =>
    rw [h.1] at hk
    cases hk

namespace System

variable {s : System} {i : Nat} {t : Task} {sus : Suspended (Except Failure Answer)}
  {x : TransactionId}

theorem Plain.refuses (h : s.Plain) (ho : s.Orderly) (hr : s.Runs i t sus) {c : Call}
    {next : c.Reply → Program (Except Failure Answer)} {r : c.Reply}
    (hprogram : sus.program = .call c next) (hrespond : s.store.respond c = .replied r s.store)
    (hend : (t.knowledge.tell (.replied c r)).ending = some .recorded)
    (hx : t.command.transaction? = some x) (now : Duration) (reading : Instant) :
    ∃ history, (s.advance i now reading).tasks[i]? = some { t with
      history := history
      status := .ended (some (.failed (.rejected (.alreadyRecorded x)))) } := by
  have hattempt : s.backend.attempt now c sus.phase = .replied r { s.backend with store := s.store } := by
    rw [Backend.attempt_plain h.faults (h.awake i t sus hr), Backend.enter_plain h.faults, hrespond]
  have hruns := (ho.steady hr).runs
  rw [hprogram] at hruns
  have hdone := Command.eq_done_of_recorded (hruns.2 r) hend
    ((Knowledge.transaction_tell _ _).trans (t.transaction_knowledge.trans hx))
  refine ⟨t.history ++ [.replied c r], ?_⟩
  rw [hr.advance_task, Suspended.step, hprogram]
  simp only [hattempt, hdone]
  rfl

theorem exists_entriesOf (hx : s.Recorded x) (u : UnitId) :
    (∃ e rest, entriesOf x s.store.entries = e :: rest) ∧
      ∃ e rest, s.store.entriesOfIn u x = e :: rest := by
  obtain ⟨e, he, hex⟩ := hx
  have hmem : e ∈ entriesOf x s.store.entries := mem_entriesOf.mpr ⟨he, hex⟩
  have hmem' : e ∈ s.store.entriesOfIn u x :=
    Store.mem_entriesOfIn.mpr ⟨List.mem_append_left _ he, hex⟩
  exact ⟨List.exists_cons_of_ne_nil (List.ne_nil_of_mem hmem),
    List.exists_cons_of_ne_nil (List.ne_nil_of_mem hmem')⟩

theorem Plain.refused (h : s.Plain) (ho : s.Orderly) (hr : s.Runs i t sus)
    (hl : sus.program.LooksUp x) (hx : s.Recorded x) (now : Duration) (reading : Instant) :
    ∃ history, (s.advance i now reading).tasks[i]? = some { t with
      history := history
      status := .ended (some (.failed (.rejected (.alreadyRecorded x)))) } := by
  have hruns := (ho.steady hr).runs
  have htx := t.transaction_knowledge
  cases hprogram : sus.program with
  | done r => rw [hprogram] at hl; cases hl
  | clock next => rw [hprogram] at hl; cases hl
  | call c next =>
    rw [hprogram] at hl hruns
    obtain ⟨⟨-, hpermits⟩, -⟩ := hruns
    cases c with
    | findByTransaction y =>
      cases hl
      obtain ⟨e, rest, hes⟩ := (exists_entriesOf hx ⟨0⟩).1
      refine h.refuses ho hr hprogram rfl ?_ (htx.symm.trans hpermits) now reading
      rw [hes]
      rfl
    | findByTransactionIn u y =>
      cases hl
      obtain ⟨e, rest, hes⟩ := (exists_entriesOf hx u).2
      refine h.refuses ho hr hprogram rfl ?_ (htx.symm.trans hpermits.2.1) now reading
      rw [hes]
      rfl
    | _ => cases hl

/-! ## Lookups before the first commit -/

def Looked (s : System) (i : Nat) : Prop := ∃ t, s.tasks[i]? = some t ∧ t.knowledge.searched = true

/-- Tasks of a transaction that was recorded by then come to their commits only if they had looked
before. -/
structure Late (s₀ s : System) (x : TransactionId) : Prop where
  recorded : s.Recorded x
  running : ∀ i t sus, s.Runs i t sus → t.command.transaction? = some x →
    t.knowledge.searched = true → s₀.Looked i
  committed : ∀ i ∈ s.commits, i ∉ s₀.commits → ∀ t, s.tasks[i]? = some t →
    t.command.transaction? = some x → s₀.Looked i

namespace Late

variable {s₀ : System}

theorem refl (hx : s.Recorded x) : s.Late s x where
  recorded := hx
  running _ t _ hr _ hs := ⟨t, hr.task, hs⟩
  committed _ hi hni := absurd hi hni

theorem running_step (h : s₀.Late s x) (hplain : s.Plain) (ho : s.Orderly) {a : Action} {t' : Task}
    {sus' : Suspended (Except Failure Answer)} (hr' : (s.step a).Runs i t' sus')
    (hx : t'.command.transaction? = some x) (hs : t'.knowledge.searched = true) : s₀.Looked i := by
  rcases hr'.of_step with hr | ⟨settings, command, rfl⟩ | ⟨now, reading, t, sus, rfl, hr, rfl⟩
  · exact h.running i t' sus' hr hx hs
  · cases hs
  · obtain ⟨e, he, hex⟩ := h.recorded
    have hk : t.knowledge.transaction = some e.transaction := by
      rw [t.transaction_knowledge, hex]
      exact hx
    rw [(hplain.follows ho hr hr'.running).2.searched_eq ⟨e, he, hk⟩] at hs
    exact h.running i t sus hr hx hs

theorem committed_step (h : s₀.Late s x) (hplain : s.Plain) (ho : s.Orderly) {a : Action}
    (hi : i ∈ (s.step a).commits) (hni : i ∉ s₀.commits) {t' : Task}
    (ht' : (s.step a).tasks[i]? = some t') (hx : t'.command.transaction? = some x) :
    s₀.Looked i := by
  have hold (hi : i ∈ s.commits) : s₀.Looked i := by
    rw [ho.committed_step hi] at ht'
    exact h.committed i hi hni t' ht' hx
  rcases (ho.step a).2 with hidle | ⟨j, now, reading, t, p, -, hc⟩
  · exact hold (hidle.commits ▸ hi)
  · rw [hc.commits, List.mem_append, List.mem_singleton] at hi
    rcases hi with hi | rfl
    · exact hold hi
    · obtain ⟨sus, hr⟩ := hc.runs
      obtain ⟨t₁, ht₁, -, hcommand, -⟩ := hc.exists_task
      rw [ht₁] at ht'
      cases ht'
      exact h.running i t sus hr (hcommand ▸ hx) ((hplain.sought i t sus hr).opened hc.opened)

theorem step (h : s₀.Late s x) (hplain : s.Plain) (ho : s.Orderly) (a : Action) :
    s₀.Late (s.step a) x where
  recorded := h.recorded.step ho a
  running _ _ _ := h.running_step hplain ho
  committed _ hi hni _ := h.committed_step hplain ho hi hni

theorem run {before after : List Action} (h : ∀ a ∈ before ++ after, a.arms = false)
    (hx : (System.run empty before).Recorded x) :
    (System.run empty before).Late (System.run empty (before ++ after)) x := by
  induction after using List.reverseRecOn with
  | nil =>
    rw [List.append_nil]
    exact refl hx
  | append_singleton after a ih =>
    rw [← List.append_assoc] at h ⊢
    rw [run_concat]
    have hbefore : ∀ b ∈ before ++ after, b.arms = false := fun b hb =>
      h b (List.mem_append_left _ hb)
    exact (ih hbefore).step (Plain.run hbefore) (Orderly.run _) a

end Late

theorem Apart.exists_wrote (h : s.Apart) (hk : s.store.book.Kept) {id : AccountId} {e : Entry}
    (he : e ∈ s.store.entriesFor id) : ∃ i ∈ s.commits, ∃ (t : Task) (p : Posting),
      s.Wrote i t p ∧ t.command.transaction? = some e.transaction ∧ id ∈ t.command.accounts ∧
      e.toDraft ∈ p.drafts ∧ e.account = id := by
  have hd : e.toDraft ∈ s.store.book.stream id := by
    rw [← Store.map_toDraft_entriesFor hk]
    exact List.mem_map_of_mem he
  obtain ⟨hmem, hacc⟩ := List.mem_filter.mp hd
  have hacc : e.account = id := of_decide_eq_true hacc
  obtain ⟨i, hi, t, ht, hx, hid⟩ := h.recorded e.toDraft hmem
  obtain ⟨t', p, hw⟩ := h.wrote i hi
  cases hw.task.symm.trans ht
  have hin : e.toDraft ∈ (s.store.book.stream id).filter
      (fun d => t.command.transaction? = some d.transaction) :=
    List.mem_filter.mpr ⟨hd, by simpa using hx⟩
  rw [hw.stream id (hacc ▸ hid)] at hin
  exact ⟨i, hi, t, p, hw, hx, hacc ▸ hid, (List.mem_filter.mp hin).1, hacc⟩

/-- An account of a committed task holds of its transaction what the task has posted there. -/
theorem Wrote.filter_entriesFor (h : s.Wrote i t p) (hk : s.store.book.Kept) {x : TransactionId}
    (hx : t.command.transaction? = some x) {id : AccountId} (hid : id ∈ t.command.accounts) :
    ((s.store.entriesFor id).filter (·.transaction = x)).map (·.toDraft) =
      p.drafts.filter (·.account = id) := by
  have hstream := h.stream id hid
  rw [← Store.map_toDraft_entriesFor hk, hx, List.filter_map] at hstream
  rw [← hstream]
  congr 1
  apply List.filter_congr
  intro e _
  simp [eq_comm]

theorem Apart.exists_posting (h : s.Apart) (hk : s.store.book.Kept) {id : AccountId} {e : Entry}
    (he : e ∈ s.store.entriesFor id) : ∃ i ∈ s.commits, ∃ (t : Task) (b : Book) (p : Posting),
      s.tasks[i]? = some t ∧ t.command.transaction? = some e.transaction ∧
      t.command.Posts t.settings t.readings b p ∧
      ((s.store.entriesFor id).filter (·.transaction = e.transaction)).map (·.toDraft) =
        p.drafts.filter (·.account = id) := by
  obtain ⟨i, hi, t, p, hw, hx, hid, -⟩ := h.exists_wrote hk he
  obtain ⟨b, hp⟩ := hw.posts
  exact ⟨i, hi, t, b, p, hw.task, hx, hp, hw.filter_entriesFor hk hx hid⟩

/-- On a store without faults, committed commands of one transaction write to different accounts, so
that what an account holds of a transaction is the posting of one of them. A command commits after an
event of its transaction only if it had looked before the event, and a lookup after the event makes
it fail. -/
theorem idempotent_per_account (actions : List Action) (plain : ∀ a ∈ actions, a.arms = false) :
    (∀ i ∈ (run empty actions).commits, ∀ j ∈ (run empty actions).commits, i ≠ j → ∀ t t' : Task,
      (run empty actions).tasks[i]? = some t → (run empty actions).tasks[j]? = some t' →
      t.command.transaction? = t'.command.transaction? →
      t.command.accounts.Disjoint t'.command.accounts) ∧
    (∀ id, ∀ e ∈ (run empty actions).store.entriesFor id, ∃ i ∈ (run empty actions).commits,
      ∃ (t : Task) (b : Book) (p : Posting), (run empty actions).tasks[i]? = some t ∧
        t.command.transaction? = some e.transaction ∧
        t.command.Posts t.settings t.readings b p ∧
        (((run empty actions).store.entriesFor id).filter
          (·.transaction = e.transaction)).map (·.toDraft) =
          p.drafts.filter (·.account = id)) ∧
    (∀ before after x, actions = before ++ after → (run empty before).Recorded x →
      ∀ i ∈ (run empty actions).commits, i ∉ (run empty before).commits → ∀ t : Task,
        (run empty actions).tasks[i]? = some t → t.command.transaction? = some x →
        (run empty before).Looked i) ∧
    ∀ i t sus x now reading, (run empty actions).Runs i t sus → sus.program.LooksUp x →
      (run empty actions).Recorded x →
      (run empty actions).Idle ((run empty actions).advance i now reading) ∧
        ∃ history, ((run empty actions).advance i now reading).tasks[i]? = some { t with
          history := history
          status := .ended (some (.failed (.rejected (.alreadyRecorded x)))) } := by
  have ho := Orderly.run actions
  have hplain := Plain.run plain
  have hapart := Apart.run plain
  refine ⟨hapart.disjoint, fun id e he => hapart.exists_posting ho.reached.kept he, ?_, ?_⟩
  · rintro before after x rfl hx i hi hni t ht htx
    exact (Late.run plain hx).committed i hi hni t ht htx
  · intro i t sus x now reading hr hl hx
    obtain ⟨history, ht'⟩ := hplain.refused ho hr hl hx now reading
    refine ⟨?_, history, ht'⟩
    rcases (ho.advance i now reading).2 with hidle | ⟨t₀, p, hc⟩
    · exact hidle
    · obtain ⟨t₁, ht₁, hend, -⟩ := hc.exists_task
      rw [ht'] at ht₁
      cases ht₁
      cases hend

/-! ## Both openings commit -/

/-- Two openings of different accounts. When the first is about to commit, the second begins, and it
commits before the first. -/
def overlapping (t u : TransactionId) : List Action :=
  [opens t idA, opens u idB] ++ steps 0 7 ++ steps 1 8 ++ steps 0 1

theorem commits_overlapping : (run empty (overlapping txA txA)).commits = [1, 0] := by
  decide +kernel

theorem transaction_overlapping (hi : i = 0 ∨ i = 1) :
    ∃ t, (run empty (overlapping txA txA)).tasks[i]? = some t ∧
      t.command.transaction? = some txA := by
  have h : ((run empty (overlapping txA txA)).tasks[i]?).map (·.command.transaction?) =
      some (some txA) := by
    rcases hi with rfl | rfl <;> decide +kernel
  exact Option.map_eq_some_iff.mp h

theorem idempotent_per_account_overlapping :
    (∀ a ∈ overlapping txA txA, a.arms = false) ∧
    (run empty (overlapping txA txA)).commits = [1, 0] ∧
    ∀ t t' : Task, (run empty (overlapping txA txA)).tasks[1]? = some t →
      (run empty (overlapping txA txA)).tasks[0]? = some t' →
      t.command.transaction? = t'.command.transaction? →
      t.command.accounts.Disjoint t'.command.accounts := by
  have hplain : ∀ a ∈ overlapping txA txA, a.arms = false := by decide
  have hcommits := commits_overlapping
  refine ⟨hplain, hcommits, ?_⟩
  exact (idempotent_per_account _ hplain).1 1 (by simp [hcommits]) 0 (by simp [hcommits]) (by decide)

/-- Two openings of different accounts can both commit under one transaction: each looks before the
other commits. -/
theorem not_at_most_one_commit :
    ¬∀ actions : List Action, (∀ a ∈ actions, a.arms = false) →
      ∀ i ∈ (run empty actions).commits, ∀ j ∈ (run empty actions).commits, ∀ t t' : Task,
        (run empty actions).tasks[i]? = some t → (run empty actions).tasks[j]? = some t' →
        t.command.transaction? = t'.command.transaction? → i = j := by
  intro h
  obtain ⟨t, ht, hx⟩ := transaction_overlapping (.inl rfl)
  obtain ⟨t', ht', hx'⟩ := transaction_overlapping (.inr rfl)
  have hcommits := commits_overlapping
  have heq := h (overlapping txA txA) (by decide) 0 (by simp [hcommits]) 1 (by simp [hcommits])
    t t' ht ht' (hx.trans hx'.symm)
  cases heq

end System

end Bookkeeping
