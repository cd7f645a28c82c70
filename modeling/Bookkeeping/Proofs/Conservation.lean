import Bookkeeping.Proofs.DecimalValue
import Bookkeeping.Proofs.Replay
import Bookkeeping.Proofs.Serializability

/-! # Money is conserved up to rounding

What all balances add up to is what the openings have brought in, except for what is lost or gained
by rounding: a transfer whose exact result on one side is not the value of any decimal leaves that
side with a rounded balance. Each such transfer shifts the sum by at most one unit; without one the
sum is exact.
-/
namespace Bookkeeping
open Bookkeeping.Time

/-! ## The sum of all balances -/

def Book.Distinct (b : Book) : Prop := (b.rows.map Account.id).Nodup

/-- The exact sum of all balances. -/
def Book.total (b : Book) : ℚ := (b.rows.map fun a => a.balance.toRat).sum

def Book.balance (b : Book) (id : AccountId) : ℚ := ((b.row id).map fun a => a.balance.toRat).getD 0

section Rows
variable {rows : List Account} {a : Account} {id : AccountId}

theorem findRow_eq_none (h : id ∉ rows.map Account.id) : findRow id rows = none := by
  apply List.find?_eq_none.mpr
  intro b hb
  rw [decide_eq_true_eq]
  rintro rfl
  exact h (List.mem_map_of_mem hb)

theorem nodup_putRow (h : (rows.map Account.id).Nodup) (a : Account) :
    ((putRow a rows).map Account.id).Nodup := by
  rw [putRow, List.map_cons, List.nodup_cons]
  refine ⟨fun hmem => ?_, h.sublist (List.filter_sublist.map _)⟩
  obtain ⟨b, hb, he⟩ := List.mem_map.mp hmem
  have hne := (List.mem_filter.mp hb).2
  rw [decide_eq_true_eq] at hne
  exact hne he

theorem sum_filter_ne (f : Account → ℚ) (id : AccountId) (h : (rows.map Account.id).Nodup) :
    ((rows.filter fun b => b.id ≠ id).map f).sum = (rows.map f).sum - ((findRow id rows).map f).getD 0 := by
  induction rows with
  | nil => simp [findRow]
  | cons b rest ih =>
    obtain ⟨hb, hrest⟩ := List.nodup_cons.mp h
    have ih := ih hrest
    by_cases hid : b.id = id
    · have hfind : findRow id (b :: rest) = some b := by simp [findRow, hid]
      have hnone : findRow id rest = none := findRow_eq_none (hid ▸ hb)
      rw [hnone] at ih
      rw [hfind, List.filter_cons_of_neg (by simpa using hid), ih]
      simp
    · have hfind : findRow id (b :: rest) = findRow id rest := by simp [findRow, hid]
      rw [hfind, List.filter_cons_of_pos (by simpa using hid), List.map_cons, List.sum_cons, ih,
        List.map_cons, List.sum_cons, add_sub_assoc]

/-- Writing a row changes a sum by what the row adds over the one that it replaces. -/
theorem sum_putRow (f : Account → ℚ) (h : (rows.map Account.id).Nodup) (a : Account) :
    ((putRow a rows).map f).sum = (rows.map f).sum - ((findRow a.id rows).map f).getD 0 + f a := by
  rw [putRow, List.map_cons, List.sum_cons, sum_filter_ne f a.id h, add_comm]

end Rows

namespace Book

variable {b : Book} {id : AccountId}

theorem balance_eq {a : Account} (h : b.row id = some a) : b.balance id = a.balance.toRat := by
  rw [balance, h]
  rfl

theorem Reached.distinct (h : b.Reached) : b.Distinct := by
  induction h with
  | empty => exact List.nodup_nil
  | post _ hp ih =>
    cases hp with
    | opening => exact nodup_putRow ih _
    | movement => exact nodup_putRow (nodup_putRow ih _) _

theorem total_post_opening (h : b.Distinct) (hrow : b.row id = none) (settings : Settings)
    (request : Request) (initial : Amount) (now : Instant) :
    (b.post (.opening settings request id initial now)).total = b.total + initial.value.toRat := by
  have hsum := sum_putRow (fun a => a.balance.toRat) h (.opened id initial now)
  have hnone : findRow id b.rows = none := hrow
  rw [Account.opened, hnone] at hsum
  simpa [total, post, Posting.opening, Account.opened] using hsum

theorem total_post_movement (h : b.Distinct) (settings : Settings) (request : Request)
    {source destination : AccountId} (hne : source ≠ destination) (amount : Amount)
    {a c debited credited : Account} (hs : b.row source = some a) (hd : b.row destination = some c)
    (hds : debited.id = source) (hcd : credited.id = destination) (n m : SequenceNumber) :
    (b.post (.movement settings request source destination amount debited credited n m)).total =
      b.total + (debited.balance.toRat - a.balance.toRat) +
        (credited.balance.toRat - c.balance.toRat) := by
  have hfirst := sum_putRow (fun a => a.balance.toRat) h debited
  have hsecond := sum_putRow (fun a => a.balance.toRat) (nodup_putRow h debited) credited
  have hs : findRow source b.rows = some a := hs
  have hd : findRow destination b.rows = some c := hd
  rw [hds, hs] at hfirst
  rw [hcd, findRow_putRow, if_neg (by rwa [hds]), hd, hfirst] at hsecond
  simp only [total, post, Posting.movement, List.foldr_cons, List.foldr_nil, hsecond,
    Option.map_some, Option.getD_some]
  ring

/-- One balance is lowered and another one raised by an amount, each of them rounded if it has to
be. -/
def Moved (b b' : Book) (source destination : AccountId) (amount : Amount) : Prop :=
  ∃ a c debited credited : Account,
    b.row source = some a ∧ b.row destination = some c ∧
    b'.row source = some debited ∧ b'.row destination = some credited ∧
    Decimal.Rounds (a.balance.toRat - amount.value.toRat) debited.balance ∧
    Decimal.Rounds (c.balance.toRat + amount.value.toRat) credited.balance

end Book

/-! ## What commands add to the sum -/

namespace Command

def deposit : Command → ℚ
  | .create _ _ initial => initial.value.toRat
  | .transfer .. | .get _ => 0

def Exact (b b' : Book) : Command → Prop
  | .transfer _ source destination amount =>
    b'.balance source = b.balance source - amount.value.toRat ∧
      b'.balance destination = b.balance destination + amount.value.toRat
  | .create .. | .get _ => True

instance (b b' : Book) (c : Command) : Decidable (c.Exact b b') := by
  cases c <;> unfold Exact <;> infer_instance

variable {settings : Settings} {readings : List Instant} {b : Book} {p : Posting}

theorem Posts.moved {request : Request} {source destination : AccountId} {amount : Amount}
    (h : Posts settings (.transfer request source destination amount) readings b p) :
    b.Moved (b.post p) source destination amount := by
  cases h with
  | movement _ hne hs hd hdebit hcredit hn hm =>
    have hds := (Account.debit_id hdebit).trans (Book.row_id hs)
    have hcd := (Account.credit_id hcredit).trans (Book.row_id hd)
    refine ⟨_, _, _, _, hs, hd, ?_, ?_, Decimal.rounds_of_sub? (Account.sub?_of_debit hdebit),
      Decimal.rounds_of_add? (Account.add?_of_credit hcredit)⟩
    · rw [Book.row_post_movement _ _ _ _ hds hcd, if_neg (Ne.symm hne), if_pos rfl]
    · rw [Book.row_post_movement _ _ _ _ hds hcd, if_pos rfl]

/-- A posting shifts the sum by at most one unit against what its command brings in, and not at all
if it is exact. -/
theorem Posts.total {command : Command} (h : command.Posts settings readings b p)
    (hb : b.Distinct) :
    |(b.post p).total - b.total - command.deposit| ≤
      if command.Exact b (b.post p) then 0 else 1 := by
  cases h with
  | opening _ hrow =>
    rw [Book.total_post_opening hb hrow]
    simp [deposit, Exact]
  | @movement request source destination amount checked now _ a c debited credited n m hf hne hs hd
      hdebit hcredit hn hm =>
    have hds := (Account.debit_id hdebit).trans (Book.row_id hs)
    have hcd := (Account.credit_id hcredit).trans (Book.row_id hd)
    have hlow := Decimal.rounds_of_sub? (Account.sub?_of_debit hdebit)
    have hhigh := Decimal.rounds_of_add? (Account.add?_of_credit hcredit)
    rw [Book.total_post_movement hb _ _ hne _ hs hd hds hcd]
    have hshift : b.total + (debited.balance.toRat - a.balance.toRat) +
          (credited.balance.toRat - c.balance.toRat) - b.total -
          deposit (.transfer request source destination amount) =
        (debited.balance.toRat - (a.balance.toRat - amount.value.toRat)) +
          (credited.balance.toRat - (c.balance.toRat + amount.value.toRat)) := by
      rw [deposit]
      ring
    rw [hshift]
    split
    · rename_i hexact
      have hsource := hexact.1
      have hdestination := hexact.2
      rw [Book.balance_eq hs, Book.balance, Book.row_post_movement _ _ _ _ hds hcd,
        if_neg (Ne.symm hne), if_pos rfl] at hsource
      rw [Book.balance_eq hd, Book.balance, Book.row_post_movement _ _ _ _ hds hcd, if_pos rfl]
        at hdestination
      simp only [Option.map_some, Option.getD_some] at hsource hdestination
      rw [hsource, hdestination]
      simp
    · exact (abs_add_le _ _).trans (by linarith [hlow.abs_sub_le, hhigh.abs_sub_le])

end Command

/-! ## Sums over runs -/

def Task.opened (t : Task) : ℚ :=
  match t.status with
  | .ended (some (.answered _)) => t.command.deposit
  | _ => 0

namespace System

variable {s s' : System} {i : Nat} {t : Task} {p : Posting}

def openings (s : System) : ℚ := (s.tasks.map Task.opened).sum

/-- An action is the commit of a transfer that does not move exactly its amount. -/
def Inexact (s : System) : Action → Prop
  | .advance i now reading =>
    (s.advance i now reading).commits ≠ s.commits ∧
      ∃ t ∈ s.tasks[i]?, ¬t.command.Exact s.store.book (s.advance i now reading).store.book
  | _ => False

instance (s : System) (a : Action) : Decidable (s.Inexact a) := by
  cases a <;> unfold Inexact <;> infer_instance

/-- The number of commits in a run that do not move exactly their amounts. -/
def roundings (s : System) : List Action → Nat
  | [] => 0
  | a :: rest => (if s.Inexact a then 1 else 0) + (s.step a).roundings rest

theorem roundings_concat (s : System) (actions : List Action) (a : Action) :
    s.roundings (actions ++ [a]) = s.roundings actions + if (s.run actions).Inexact a then 1 else 0 := by
  induction actions generalizing s with
  | nil =>
    rw [List.nil_append, roundings, roundings, Nat.add_comm]
    rfl
  | cons b rest ih =>
    rw [List.cons_append, roundings, ih, roundings, ← Nat.add_assoc]
    rfl

theorem Orderly.opened_eq_zero (h : s.Orderly) (ht : s.tasks[i]? = some t) (hi : i ∉ s.commits) :
    t.opened = 0 := by
  unfold Task.opened
  split
  · rename_i answer hstatus
    cases hc : t.command with
    | create request id initial =>
      exact absurd ((h.succeeded_iff ht (by simp [hc, Command.transaction?])).mp ⟨answer, hstatus⟩) hi
    | transfer => rfl
    | get => rfl
  · rfl

theorem Orderly.openings_idle (h : s.Orderly) {a : Action} (hi : s.Idle (s.step a)) :
    (s.step a).openings = s.openings := by
  have hset {j : Nat} {t t' : Task} {sus : Suspended (Except Failure Answer)} (hr : s.Runs j t sus)
      (htasks : (s.step a).tasks = s.tasks.set j t') : (s.step a).openings = s.openings := by
    have hnot := h.not_mem_commits hr
    have ht' : (s.step a).tasks[j]? = some t' := by
      rw [htasks, List.getElem?_set_self (List.getElem?_eq_some_iff.mp hr.task).1]
    have hzero' := (h.step a).1.opened_eq_zero ht' (hi.commits ▸ hnot)
    rw [openings, htasks, map_set_of_eq hr.task (hzero'.trans (h.opened_eq_zero hr.task hnot).symm)]
    rfl
  have hstop {j : Nat} {outcome : Task → Option Outcome} (ha : s.step a = s.stop j outcome) :
      (s.step a).openings = s.openings := by
    by_cases hr : ∃ t sus, s.Runs j t sus
    · obtain ⟨t, sus, hr⟩ := hr
      exact hset hr (congrArg System.tasks (ha.trans (hr.stop_eq outcome)))
    · rw [ha, stop_of_not_runs hr]
  cases a with
  | start settings command => simp [System.step, openings, Task.opened, Task.begin]
  | advance j now reading =>
    by_cases hr : ∃ t sus, s.Runs j t sus
    · obtain ⟨t, sus, hr⟩ := hr
      exact hset hr (congrArg System.tasks (hr.advance_eq now reading))
    · rw [System.step, advance_of_not_runs hr]
  | timeOut j => exact hstop rfl
  | cancel j => exact hstop rfl
  | arm faults => rfl

theorem Orderly.openings_commits (h : s.Orderly) (hc : s.Commits i t p s') :
    s'.openings = s.openings + t.command.deposit := by
  obtain ⟨sus, hr⟩ := hc.runs
  obtain ⟨u, htasks⟩ := hc.tasks
  obtain ⟨hlt, hget⟩ := List.getElem?_eq_some_iff.mp hr.task
  have hzero := h.opened_eq_zero hr.task (h.not_mem_commits hr)
  rw [openings, htasks, List.map_set, List.sum_set', dif_pos (by simpa using hlt), List.getElem_map,
    hget, hzero, neg_zero, zero_add]
  rfl

/-- An action shifts the sum of the balances against the openings by at most one unit, and only if it
is not exact. -/
theorem Orderly.shift (h : s.Orderly) (a : Action) :
    |((s.step a).store.book.total - (s.step a).openings) - (s.store.book.total - s.openings)| ≤
      if s.Inexact a then 1 else 0 := by
  rcases (h.step a).2 with hidle | ⟨i, now, reading, t, p, rfl, hc⟩
  · rw [hidle.book, h.openings_idle hidle, sub_self, abs_zero]
    split <;> norm_num
  · obtain ⟨sus, hr⟩ := hc.runs
    have htotal := hc.posts.total h.reached.distinct
    have hinexact : s.Inexact (.advance i now reading) ↔
        ¬t.command.Exact s.store.book (s.store.book.post p) := by
      have hbook : (s.advance i now reading).store.book = s.store.book.post p := hc.book
      have hcommits : (s.advance i now reading).commits = s.commits ++ [i] := hc.commits
      simp [Inexact, hr.task, hbook, hcommits]
    have hshift : ((s.step (.advance i now reading)).store.book.total -
          (s.step (.advance i now reading)).openings) - (s.store.book.total - s.openings) =
        (s.store.book.post p).total - s.store.book.total - t.command.deposit := by
      rw [hc.book, h.openings_commits hc]
      ring
    rw [hshift]
    refine htotal.trans (le_of_eq ?_)
    by_cases hexact : t.command.Exact s.store.book (s.store.book.post p)
    · rw [if_pos hexact, if_neg (fun hin => hinexact.mp hin hexact)]
    · rw [if_neg hexact, if_pos (hinexact.mpr hexact)]

theorem abs_total_sub_openings_le (actions : List Action) :
    |(run empty actions).store.book.total - (run empty actions).openings| ≤
      empty.roundings actions := by
  induction actions using List.reverseRecOn with
  | nil => simp [empty, Book.total, Store.book, openings]
  | append_singleton actions a ih =>
    have hshift := (Orderly.run actions).shift a
    have htriangle := abs_add_le
      (((run empty actions).step a).store.book.total - ((run empty actions).step a).openings -
        ((run empty actions).store.book.total - (run empty actions).openings))
      ((run empty actions).store.book.total - (run empty actions).openings)
    rw [sub_add_cancel] at htriangle
    rw [run_concat, roundings_concat]
    push_cast
    linarith

/-- The exact sum of all balances differs from what the successful openings have brought in by at
most one unit for each committed transfer that was rounded, and not at all if none was. Every
committed transfer lowers one balance and raises the other by its amount, rounded only if no decimal
is the exact result. -/
theorem conserves_up_to_rounding (actions : List Action) :
    (run empty actions).store.book.Distinct ∧
    |(run empty actions).store.book.total - (run empty actions).openings| ≤
      empty.roundings actions ∧
    (empty.roundings actions = 0 →
      (run empty actions).store.book.total = (run empty actions).openings) ∧
    ∀ before a after i t request source destination amount, actions = before ++ a :: after →
      (run empty before).tasks[i]? = some t →
      t.command = .transfer request source destination amount →
      ((run empty before).step a).commits = (run empty before).commits ++ [i] →
      (run empty before).store.book.Moved ((run empty before).step a).store.book source destination
        amount := by
  have habs := abs_total_sub_openings_le actions
  refine ⟨(Orderly.run actions).reached.distinct, habs, fun hzero => ?_, ?_⟩
  · rw [hzero, Nat.cast_zero] at habs
    exact sub_eq_zero.mp (abs_eq_zero.mp (le_antisymm habs (abs_nonneg _)))
  · rintro before a after i t request source destination amount - ht hcommand hcommits
    rcases ((Orderly.run before).step a).2 with hidle | ⟨j, now, reading, t', p, -, hc⟩
    · rw [hidle.commits] at hcommits
      simp at hcommits
    · rw [hc.commits, List.append_right_inj, List.singleton_inj] at hcommits
      subst hcommits
      obtain ⟨sus, hr⟩ := hc.runs
      rw [hr.task] at ht
      cases ht
      have hp := hc.posts
      rw [hcommand] at hp
      rw [hc.book]
      exact hp.moved

/-- Two accounts are opened, and a transfer between them comes up to its commit. -/
def uncommitted (a b amount : Amount) : List Action :=
  [opensWith txA idA a, opensWith txB idB b, transfers txC idA idB amount] ++
    steps 0 8 ++ steps 1 8 ++ steps 2 13

def final : Action := turn 2

theorem conserves_up_to_rounding_tenth :
    empty.roundings (uncommitted ten ten tenth ++ [final]) = 0 ∧
    (run empty (uncommitted ten ten tenth ++ [final])).store.book.total =
      (run empty (uncommitted ten ten tenth ++ [final])).openings ∧
    (run empty (uncommitted ten ten tenth)).store.book.Moved
      ((run empty (uncommitted ten ten tenth)).step final).store.book idA idB tenth := by
  obtain ⟨-, -, hexact, hmoved⟩ := conserves_up_to_rounding (uncommitted ten ten tenth ++ [final])
  have hzero : empty.roundings (uncommitted ten ten tenth ++ [final]) = 0 := by decide +kernel
  have hcommand : ((run empty (uncommitted ten ten tenth)).tasks[2]?).map (·.command) =
      some (.transfer ⟨txC, ⟨0, 0, by decide⟩⟩ idA idB tenth) := by decide +kernel
  have hcommits : ((run empty (uncommitted ten ten tenth)).step final).commits =
      (run empty (uncommitted ten ten tenth)).commits ++ [2] := by decide +kernel
  obtain ⟨t, ht, hcommand⟩ := Option.map_eq_some_iff.mp hcommand
  exact ⟨hzero, hexact hzero, hmoved _ final [] 2 t _ _ _ _ rfl ht hcommand hcommits⟩

/-- A tenth of a unit moved out of the largest balance there is arrives without having left. -/
theorem not_conserved : ¬∀ actions : List Action,
    (run empty actions).store.book.total = (run empty actions).openings := by
  intro h
  have hne : (run empty (uncommitted most tenth tenth ++ [final])).store.book.total ≠
      (run empty (uncommitted most tenth tenth ++ [final])).openings := by decide +kernel
  exact hne (h _)

end System

end Bookkeeping
