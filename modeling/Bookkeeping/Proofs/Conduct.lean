import Bookkeeping.Proofs.Book
import Bookkeeping.Proofs.Contracts

/-! # The conduct of programs

What a program has learned and written can be read off its history. A program that conducts itself
well opens at most one unit of work and uses no other, reads under its locks before it writes, and does
nothing after its commit or after it has found its transaction recorded.
-/
namespace Bookkeeping
open Bookkeeping.Time

inductive Knowledge.Ending where
  | committed
  | refused
  | recorded
  deriving DecidableEq

/-- What a program knows from its history. -/
structure Knowledge where
  transaction : Option TransactionId
  readings : List Instant := []
  /-- The transaction was looked up and not found. -/
  searched : Bool := false
  unit : Option UnitId := none
  locked : List (AccountId × Account) := []
  /-- Accounts that were locked when the transaction was looked up and not found. -/
  cleared : List AccountId := []
  numbers : List (AccountId × SequenceNumber) := []
  drafts : List Draft := []
  rows : List Account := []
  ending : Option Knowledge.Ending := none

namespace Knowledge

def tell (k : Knowledge) : Observation → Knowledge
  | .read t => { k with readings := k.readings ++ [t] }
  | .replied (.findByTransaction _) (.ok (_ :: _)) => { k with ending := some .recorded }
  | .replied (.findByTransaction _) (.ok []) => { k with searched := true }
  | .replied (.findByTransaction _) (.error e) =>
    if e.isNotFound then { k with searched := true } else k
  | .replied .openUnit (.ok u) =>
    { transaction := k.transaction
      readings := k.readings
      searched := k.searched
      unit := some u }
  | .replied (.lockAccount _ id) (.ok a) => { k with locked := (id, a) :: k.locked }
  | .replied (.findByTransactionIn ..) (.ok (_ :: _)) => { k with ending := some .recorded }
  | .replied (.findByTransactionIn ..) (.ok []) => { k with cleared := k.locked.map (·.1) }
  | .replied (.findByTransactionIn ..) (.error e) =>
    if e.isNotFound then { k with cleared := k.locked.map (·.1) } else k
  | .replied (.findLastIn _ id) (.ok e) => { k with numbers := (id, e.sequence) :: k.numbers }
  | .replied (.append _ drafts) (.ok _) => { k with drafts := k.drafts ++ drafts }
  | .replied (.upsertAccount _ a) (.ok _) => { k with rows := putRow a k.rows }
  | .replied (.commit _) (.ok _) => { k with ending := some .committed }
  | .replied (.commit _) (.error _) => { k with ending := some .refused }
  | _ => k

def ofHistory (command : Command) (history : List Observation) : Knowledge :=
  history.foldl tell { transaction := command.transaction? }

@[simp] theorem ofHistory_nil (command : Command) :
    ofHistory command [] = { transaction := command.transaction? } := rfl

@[simp] theorem ofHistory_concat (command : Command) (history : List Observation) (o : Observation) :
    ofHistory command (history ++ [o]) = (ofHistory command history).tell o := by
  simp [ofHistory]

theorem tell_replied (k : Knowledge) (c : Call) (r : c.Reply) :
    (k.tell (.replied c r)).unit = unitAfter k.unit c r ∧
      (k.tell (.replied c r)).transaction = k.transaction ∧
      (k.tell (.replied c r)).readings = k.readings := by
  cases c with
  | openUnit => cases r <;> exact ⟨rfl, rfl, rfl⟩
  | lockAccount u id => cases r <;> exact ⟨rfl, rfl, rfl⟩
  | findByTransaction t =>
    cases r with
    | ok es => cases es <;> exact ⟨rfl, rfl, rfl⟩
    | error e => rw [tell]; split <;> exact ⟨rfl, rfl, rfl⟩
  | findByTransactionIn u t =>
    cases r with
    | ok es => cases es <;> exact ⟨rfl, rfl, rfl⟩
    | error e => rw [tell]; split <;> exact ⟨rfl, rfl, rfl⟩
  | findLastIn u id => cases r <;> exact ⟨rfl, rfl, rfl⟩
  | append u drafts => cases r <;> exact ⟨rfl, rfl, rfl⟩
  | upsertAccount u a => cases r <;> exact ⟨rfl, rfl, rfl⟩
  | commit u => cases r <;> exact ⟨rfl, rfl, rfl⟩
  | _ => exact ⟨rfl, rfl, rfl⟩

theorem unit_tell (k : Knowledge) (c : Call) (r : c.Reply) :
    (k.tell (.replied c r)).unit = unitAfter k.unit c r :=
  (k.tell_replied c r).1

theorem readings_tell (k : Knowledge) (c : Call) (r : c.Reply) :
    (k.tell (.replied c r)).readings = k.readings :=
  (k.tell_replied c r).2.2

@[simp] theorem transaction_tell (k : Knowledge) (o : Observation) :
    (k.tell o).transaction = k.transaction := by
  cases o with
  | read now => rfl
  | replied c r => exact (k.tell_replied c r).2.1

def Permits (k : Knowledge) (c : Call) : Prop :=
  k.ending = none ∧
    match c with
    | .findAccount _ | .findLast _ => True
    | .findByTransaction t => k.transaction = some t
    | .openUnit => k.unit = none ∧ k.searched = true
    | .lockAccount u _ => k.unit = some u ∧ k.rows = []
    | .findByTransactionIn u t => k.unit = some u ∧ k.transaction = some t ∧ k.drafts = []
    | .findLastIn u id => k.unit = some u ∧ k.drafts = [] ∧ id ∈ k.locked.map (·.1)
    | .append u _ | .upsertAccount u _ | .commit u => k.unit = some u
    | .rollback _ => False

theorem Permits.unit?_eq {k : Knowledge} {c : Call} (h : k.Permits c) :
    c.unit? = none ∨ c.unit? = k.unit := by
  obtain ⟨-, h⟩ := h
  cases c with
  | findAccount _ | findByTransaction _ | findLast _ | openUnit => exact .inl rfl
  | lockAccount u id => exact .inr h.1.symm
  | findByTransactionIn u t => exact .inr h.1.symm
  | findLastIn u id => exact .inr h.1.symm
  | append u drafts => exact .inr h.symm
  | upsertAccount u a => exact .inr h.symm
  | commit u => exact .inr h.symm
  | rollback u => exact h.elim

/-- The failures that fit what a program knows: nothing is committed, and a transaction that was
found is the reason. -/
def Fails (k : Knowledge) (why : Failure) : Prop :=
  k.ending ≠ some .committed ∧
    (k.ending = some .recorded → ∃ t, k.transaction = some t ∧ why = .rejected (.alreadyRecorded t))

theorem fails_of_ending_eq_none {k : Knowledge} (h : k.ending = none) (why : Failure) :
    k.Fails why := by
  simp [Fails, h]

end Knowledge

/-- Each call is permitted to a program that knows what it then knows, and so is a reading of the clock
as long as nothing has ended; each result fits. -/
abbrev Contract.conduct : Contract Knowledge where
  tell := Knowledge.tell
  onCall k c P := k.Permits c ∧ ∀ r, P r
  onClock k P := k.ending = none ∧ ∀ t, P t
  fails := Knowledge.Fails
  onCall_mono hPQ h := ⟨h.1, fun r => hPQ r (h.2 r)⟩
  onClock_mono hPQ h := ⟨h.1, fun t => hPQ t (h.2 t)⟩

theorem Contract.open_conduct : Contract.conduct.Open := ⟨fun h => h.2, fun h => h.2⟩

end Bookkeeping
