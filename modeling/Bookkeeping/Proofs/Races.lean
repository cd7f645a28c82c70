import Bookkeeping.Proofs.Deadlock
import Bookkeeping.Proofs.Serializability

/-! # Races of a transfer with its replays

Transfers of one transaction may all pass the first lookup before any of them commits. If any two of
them share an account, at most one commits all the same: the others look the transaction up once more
when both their rows are locked, and one that does so after the commit is told that the transaction is
recorded, whatever has become of the balances.
-/
namespace Bookkeeping
open Bookkeeping.Time

def Command.Transfers (x : TransactionId) : Command → Prop
  | .transfer request .. => request.transaction = x
  | _ => False

instance (x : TransactionId) : (command : Command) → Decidable (command.Transfers x)
  | .transfer request .. => inferInstanceAs (Decidable (request.transaction = x))
  | .create .. | .get _ => inferInstanceAs (Decidable False)

def Program.rechecks {α : Type} : Program α → Bool
  | .call (.findByTransactionIn ..) _ => true
  | _ => false

theorem Command.Transfers.transaction? {x : TransactionId} {command : Command}
    (h : command.Transfers x) : command.transaction? = some x := by
  cases command with
  | transfer request source destination amount => exact congrArg some h
  | _ => cases h

namespace System

variable {s : System} {i j : Nat} {t : Task} {sus : Suspended (Except Failure Answer)}
  {x : TransactionId} {race : List Nat} {actions before after : List Action}

def Action.actor : Action → Option Nat
  | .advance i .. | .timeOut i | .cancel i => some i
  | _ => none

/-- Transfers of one transaction of which any two share an account. -/
structure Race (s : System) (x : TransactionId) (race : List Nat) : Prop where
  transfers : ∀ i ∈ race, ∃ t, s.tasks[i]? = some t ∧ t.command.Transfers x
  share : ∀ i ∈ race, ∀ j ∈ race, ∀ t t', s.tasks[i]? = some t → s.tasks[j]? = some t' →
    ∃ id ∈ t.command.accounts, id ∈ t'.command.accounts

theorem Race.eq_of_mem_commits (h : s.Race x race) (ha : s.Apart) (hi : i ∈ race) (hj : j ∈ race)
    (hci : i ∈ s.commits) (hcj : j ∈ s.commits) : i = j := by
  obtain ⟨t, ht, hx⟩ := h.transfers i hi
  obtain ⟨t', ht', hx'⟩ := h.transfers j hj
  obtain ⟨id, hid, hid'⟩ := h.share i hi j hj t t' ht ht'
  by_contra hne
  exact ha.disjoint i hci j hcj hne t t' ht ht' (hx.transaction?.trans hx'.transaction?.symm) hid hid'

theorem Race.transfers_before (h : (run empty (before ++ after)).Race x race) (hi : i ∈ race)
    (ht : (run empty before).tasks[i]? = some t) : t.command.Transfers x := by
  obtain ⟨t₁, ht₁, hx⟩ := h.transfers i hi
  obtain ⟨t₂, ht₂, hcommand⟩ := exists_command_run ht after
  rw [← run_append, ht₁] at ht₂
  cases ht₂
  rwa [← hcommand]

theorem Race.recorded (h : (run empty (before ++ after)).Race x race)
    (ha : (run empty before).Apart) (hj : j ∈ race) (hc : j ∈ (run empty before).commits) :
    (run empty before).Recorded x := by
  obtain ⟨t, p, hw⟩ := ha.wrote j hc
  have hx := h.transfers_before hj hw.task
  obtain ⟨id, hid⟩ : ∃ id, id ∈ t.command.accounts := by
    cases hcommand : t.command with
    | transfer request source destination amount => exact ⟨source, by simp [Command.accounts]⟩
    | _ => rw [hcommand] at hx; cases hx
  obtain ⟨d, hd, hdx⟩ := hw.exists_draft hid
  rw [hx.transaction?] at hdx
  obtain ⟨e, he, rfl⟩ := List.mem_map.mp (List.mem_filter.mp hd).1
  exact ⟨e, he, (Option.some.inj hdx).symm⟩

/-- At its second lookup a transfer holds the locks of both its accounts. -/
theorem held_of_rechecks (hr : (run empty actions).Runs i t sus) (hp : sus.program.rechecks = true) :
    ∃ u, sus.unit = some u ∧
      ∀ id ∈ t.command.accounts, id ∈ ((run empty actions).store.unit u).held := by
  have hst := (Orderly.run actions).steady hr
  have hruns := hst.runs
  have hobeys := obeys_run lockRule_obeyed actions hr
  cases hprogram : sus.program with
  | call c next =>
    rw [hprogram] at hp hruns hobeys
    cases c with
    | findByTransactionIn u y =>
      have hunit : sus.unit = some u := hst.unit.trans hruns.1.2.1
      exact ⟨u, hunit, fun id hid => (hst.stands u hunit).held (hobeys.1 id hid)⟩
    | _ => cases hp
  | _ => rw [hprogram] at hp; cases hp

theorem looksUp_of_rechecks (hr : (run empty actions).Runs i t sus) (hp : sus.program.rechecks = true)
    (hx : t.command.transaction? = some x) : sus.program.LooksUp x := by
  have hruns := ((Orderly.run actions).steady hr).runs
  cases hprogram : sus.program with
  | call c next =>
    rw [hprogram] at hp hruns
    cases c with
    | findByTransactionIn u y =>
      have hy : t.knowledge.transaction = some y := hruns.1.2.2.1
      rw [t.transaction_knowledge, hx] at hy
      exact (Option.some.inj hy).symm
    | _ => cases hp
  | _ => rw [hprogram] at hp; cases hp

/-- No action of a task that ends without a success changes what is committed. -/
theorem idle_of_not_succeeded {a : Action} (ha : a.actor = some i)
    (ht : (run empty (before ++ a :: after)).tasks[i]? = some t) (hnot : ¬t.Succeeded) :
    (run empty before).Idle ((run empty before).step a) := by
  rcases ((Orderly.run before).step a).2 with hidle | ⟨j, now, reading, t₀, p, rfl, hc⟩
  · exact hidle
  · cases ha
    obtain ⟨t₁, ht₁, hend, -⟩ := hc.exists_task
    have hrun := ended_run ht₁ hend after
    rw [run_append] at ht
    cases ht.symm.trans hrun
    exact absurd ⟨p.answer, hend⟩ hnot

/-- Of transfers of one transaction that share accounts pair by pair, at most one commits. Each that
comes to its second lookup after the commit holds the locks of both its accounts then, ends with the
error that its transaction is recorded, and commits nothing with any of its actions. -/
theorem replay_race (plain : ∀ a ∈ actions, a.arms = false) (h : (run empty actions).Race x race) :
    (∀ i ∈ race, ∀ j ∈ race, i ∈ (run empty actions).commits → j ∈ (run empty actions).commits →
      i = j) ∧
    ∀ before i now reading after, actions = before ++ .advance i now reading :: after → i ∈ race →
      (∃ j ∈ race, j ∈ (run empty before).commits) → ∀ t sus, (run empty before).Runs i t sus →
      sus.program.rechecks = true →
      (∃ u, sus.unit = some u ∧
        ∀ id ∈ t.command.accounts, id ∈ ((run empty before).store.unit u).held) ∧
      (∃ history, (run empty actions).tasks[i]? = some { t with
        history := history
        status := .ended (some (.failed (.rejected (.alreadyRecorded x)))) }) ∧
      ∀ earlier a later, actions = earlier ++ a :: later → a.actor = some i →
        (run empty earlier).Idle ((run empty earlier).step a) := by
  refine ⟨fun i hi j hj => h.eq_of_mem_commits (Apart.run plain) hi hj, ?_⟩
  rintro before i now reading after rfl hi ⟨j, hj, hc⟩ t sus hr hp
  have hbefore : ∀ a ∈ before, a.arms = false := fun a ha => plain a (List.mem_append_left _ ha)
  have hx := (h.transfers_before hi hr.task).transaction?
  have hrecorded := h.recorded (Apart.run hbefore) hj hc
  obtain ⟨history, ht⟩ := (Plain.run hbefore).refused (Orderly.run before) hr
    (looksUp_of_rechecks hr hp hx) hrecorded now reading
  have hend : (run empty (before ++ .advance i now reading :: after)).tasks[i]? = some { t with
      history := history
      status := .ended (some (.failed (.rejected (.alreadyRecorded x)))) } := by
    rw [run_append]
    exact ended_run (s := (run empty before).advance i now reading) ht rfl after
  -- an action of the task that committed something would have ended it with a success
  refine ⟨held_of_rechecks hr hp, ⟨history, hend⟩, fun earlier a later he ha => ?_⟩
  rw [he] at hend
  exact idle_of_not_succeeded ha hend fun ⟨answer, hanswer⟩ => by cases hanswer

/-! ## A replay that goes on from the destination -/

/-- Both transfers look before the first locks its rows; the second waits for the shared row until the
first has committed, and comes up to its second lookup. -/
def replayed : List Action :=
  linked txD txD ++ steps 3 2 ++ steps 4 3 ++ steps 3 3 ++ steps 4 1 ++ steps 3 9 ++ steps 4 2

def recheck : Action := turn 4

theorem race_of_shared (id : AccountId) (h : ∀ i ∈ race, ∃ command ∈ (s.tasks[i]?).map (·.command),
    command.Transfers x ∧ id ∈ command.accounts) : s.Race x race := by
  have hshared {i : Nat} {t : Task} (hi : i ∈ race) (ht : s.tasks[i]? = some t) :
      t.command.Transfers x ∧ id ∈ t.command.accounts := by
    obtain ⟨command, hc, hcommand⟩ := h i hi
    rw [ht] at hc
    cases hc
    exact hcommand
  refine ⟨fun i hi => ?_, fun i hi j hj t t' ht ht' => ⟨id, (hshared hi ht).2, (hshared hj ht').2⟩⟩
  obtain ⟨command, hc, -⟩ := h i hi
  obtain ⟨t, ht, -⟩ := Option.map_eq_some_iff.mp hc
  exact ⟨t, ht, (hshared hi ht).1⟩

theorem race_replayed : (run empty (replayed ++ [recheck])).Race txD [3, 4] :=
  race_of_shared idB (by decide +kernel)

theorem runs_replayed : ∃ t sus, (run empty replayed).Runs 4 t sus ∧ sus.program.rechecks = true := by
  have h : ∃ sus ∈ ((run empty replayed).tasks[4]?).bind Task.running?,
      sus.program.rechecks = true := by decide +kernel
  obtain ⟨sus, hsus, h⟩ := h
  obtain ⟨t, ht, hrunning⟩ := Option.bind_eq_some_iff.mp hsus
  exact ⟨t, sus, ⟨ht, Task.running?_eq_some_iff.mp hrunning⟩, h⟩

theorem replay_race_replayed :
    (∀ a ∈ replayed ++ [recheck], a.arms = false) ∧
    (run empty (replayed ++ [recheck])).Race txD [3, 4] ∧
    3 ∈ (run empty replayed).commits ∧
    (∃ t sus, (run empty replayed).Runs 4 t sus ∧ sus.program.rechecks = true ∧
      ∃ history, (run empty (replayed ++ [recheck])).tasks[4]? = some { t with
        history := history
        status := .ended (some (.failed (.rejected (.alreadyRecorded txD)))) }) := by
  have hplain : ∀ a ∈ replayed ++ [recheck], a.arms = false := by decide
  have hcommits : 3 ∈ (run empty replayed).commits := by decide +kernel
  obtain ⟨t, sus, hr, hp⟩ := runs_replayed
  obtain ⟨-, hend, -⟩ := (replay_race hplain race_replayed).2 replayed 4 ⟨0⟩ ⟨0, 0, by decide⟩ [] rfl
    (by decide) ⟨3, by decide, hcommits⟩ t sus hr hp
  exact ⟨hplain, race_replayed, hcommits, t, sus, hr, hp, hend⟩

end System

end Bookkeeping
