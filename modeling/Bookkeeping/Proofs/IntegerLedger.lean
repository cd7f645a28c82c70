import Bookkeeping.Proofs.DecimalValue
import Bookkeeping.Proofs.Execution
import Mathlib.Algebra.Group.Nat.Defs
import Mathlib.Data.Int.Notation
import Mathlib.Data.Nat.Notation
import Mathlib.Logic.Function.Basic
import Mathlib.Tactic.SplitIfs

/-! # A ledger over whole numbers

The same commands on books without decimals: all money is counted in units of one size, in whole
numbers of any size, and all that is kept besides is how many entries each account has and which
transactions are recorded. Sums are exact and never out of range. What is left of the limits of the
other books is that entries are numbered by 64 bits.
-/
namespace Bookkeeping
open Bookkeeping.Time

inductive UnitCommand where
  | create (request : Request) (id : AccountId) (initial : ℤ)
  | transfer (request : Request) (source destination : AccountId) (amount : ℤ)
  | get (id : AccountId)

inductive Verdict where
  | account (id : AccountId) (balance : ℤ)
  | moved
  | alreadyExists (id : AccountId)
  | alreadyRecorded (t : TransactionId)
  | invalidRequestTime (requested now : Instant)
  | sameAccount (id : AccountId)
  | accountNotFound (id : AccountId)
  | sourceNotFound (id : AccountId)
  | destinationNotFound (id : AccountId)
  | insufficientBalance (id : AccountId) (balance requested : ℤ)
  /-- A stream has no number left. -/
  | exhausted
  deriving DecidableEq

/-- Balances in units, the lengths of all streams, and the recorded transactions. -/
structure IntegerLedger where
  balance : AccountId → Option ℤ := fun _ => none
  entries : AccountId → ℕ := fun _ => 0
  recorded : List TransactionId := []

namespace IntegerLedger

def post (l : IntegerLedger) (t : TransactionId) (id : AccountId) (balance : ℤ) (count : ℕ) :
    IntegerLedger where
  balance := Function.update l.balance id (some balance)
  entries := Function.update l.entries id (l.entries id + count)
  recorded := t :: l.recorded

def IsFull (l : IntegerLedger) (id : AccountId) : Prop := l.entries id + 1 = 2 ^ 64

instance (l : IntegerLedger) (id : AccountId) : Decidable (l.IsFull id) :=
  inferInstanceAs (Decidable (_ = _))

def move (l : IntegerLedger) (t : TransactionId) (source destination : AccountId) (amount a c : ℤ) :
    Verdict × IntegerLedger :=
  if a < amount then (.insufficientBalance source a amount, l)
  else if l.IsFull source ∨ l.IsFull destination then (.exhausted, l)
  else (.moved, (l.post t source (a - amount) 1).post t destination (c + amount) 1)

def step (settings : Settings) (now : Instant) (l : IntegerLedger) :
    UnitCommand → Verdict × IntegerLedger
  | .create request id initial =>
    if ¬Workflow.Fresh settings request now then (.invalidRequestTime request.time now, l)
    else if l.balance id ≠ none then (.alreadyExists id, l)
    else if request.transaction ∈ l.recorded then (.alreadyRecorded request.transaction, l)
    else (.account id initial, l.post request.transaction id initial 2)
  | .transfer request source destination amount =>
    if ¬Workflow.Fresh settings request now then (.invalidRequestTime request.time now, l)
    else if request.transaction ∈ l.recorded then (.alreadyRecorded request.transaction, l)
    else if source = destination then (.sameAccount source, l)
    else match l.balance source, l.balance destination with
      | none, _ => (.sourceNotFound source, l)
      | some _, none => (.destinationNotFound destination, l)
      | some a, some c => l.move request.transaction source destination amount a c
  | .get id =>
    match l.balance id with
    | none => (.accountNotFound id, l)
    | some a => (.account id a, l)

variable {l : IntegerLedger} {id : AccountId}

theorem balance_post (t : TransactionId) (id' : AccountId) (balance : ℤ) (count : ℕ) :
    (l.post t id' balance count).balance id = if id = id' then some balance else l.balance id :=
  Function.update_apply ..

theorem entries_post (t : TransactionId) (id' : AccountId) (balance : ℤ) (count : ℕ) :
    (l.post t id' balance count).entries id =
      if id = id' then l.entries id' + count else l.entries id :=
  Function.update_apply ..

theorem entries_post_le (t : TransactionId) (id' : AccountId) (balance : ℤ) (count : ℕ) :
    (l.post t id' balance count).entries id ≤ l.entries id + count := by
  rw [entries_post]
  split_ifs with h
  · exact h ▸ Nat.le_refl _
  · exact Nat.le_add_right _ _

/-- A step leaves the ledger as it is, opens an account, or moves an amount. -/
theorem step_cases (settings : Settings) (now : Instant) (l : IntegerLedger) (c : UnitCommand) :
    ((l.step settings now c).1 ≠ .exhausted ∧ (l.step settings now c).2 = l) ∨
    (∃ t id n, l.step settings now c = (.account id n, l.post t id n 2)) ∨
    ∃ t source destination amount a b,
      l.step settings now c = l.move t source destination amount a b := by
  cases c with
  | create request id initial =>
    rw [step]
    split
    · exact .inl ⟨by simp, rfl⟩
    split
    · exact .inl ⟨by simp, rfl⟩
    split
    · exact .inl ⟨by simp, rfl⟩
    · exact .inr (.inl ⟨_, _, _, rfl⟩)
  | transfer request source destination amount =>
    rw [step]
    split
    · exact .inl ⟨by simp, rfl⟩
    split
    · exact .inl ⟨by simp, rfl⟩
    split
    · exact .inl ⟨by simp, rfl⟩
    split
    · exact .inl ⟨by simp, rfl⟩
    · exact .inl ⟨by simp, rfl⟩
    · exact .inr (.inr ⟨_, _, _, _, _, _, rfl⟩)
  | get id =>
    rw [step]
    split <;> exact .inl ⟨by simp, rfl⟩

theorem entries_step_le (settings : Settings) (now : Instant) (c : UnitCommand) :
    (l.step settings now c).2.entries id ≤ l.entries id + 2 := by
  rcases step_cases settings now l c with ⟨-, h⟩ | ⟨t, id', n, h⟩ | ⟨t, source, destination, amount, a, b, h⟩
  · rw [h]
    exact Nat.le_add_right _ _
  · rw [h]
    exact entries_post_le ..
  · rw [h, move]
    split_ifs
    · exact Nat.le_add_right _ _
    · exact Nat.le_add_right _ _
    · let debited := l.post t source (a - amount) 1
      calc (debited.post t destination (b + amount) 1).entries id
          ≤ debited.entries id + 1 := entries_post_le ..
        _ ≤ l.entries id + 1 + 1 := Nat.add_le_add_right (entries_post_le ..) 1

theorem exists_full_of_step {settings : Settings} {now : Instant} {c : UnitCommand}
    (h : (l.step settings now c).1 = .exhausted) : ∃ id, l.IsFull id := by
  rcases step_cases settings now l c with ⟨hne, -⟩ | ⟨t, id, n, hpost⟩ |
    ⟨t, source, destination, amount, a, b, hmove⟩
  · exact absurd h hne
  · rw [hpost] at h
    cases h
  · rw [hmove, move] at h
    split_ifs at h with hless hfull
    rcases hfull with hfull | hfull
    · exact ⟨source, hfull⟩
    · exact ⟨destination, hfull⟩

end IntegerLedger

/-! ## Commands in units -/

def Command.inUnits (s : ℕ) : Command → UnitCommand
  | .create request id initial => .create request id (initial.value.units s)
  | .transfer request source destination amount =>
    .transfer request source destination (amount.value.units s)
  | .get id => .get id

namespace IntegerLedger

def serve (s : ℕ) (l : IntegerLedger) (v : Visit) : Verdict × IntegerLedger :=
  l.step v.settings v.clock.next (v.command.inUnits s)

def serveAll (s : ℕ) (l : IntegerLedger) : List Visit → List Verdict × IntegerLedger
  | [] => ([], l)
  | v :: rest =>
    let (w, l) := l.serve s v
    let (ws, l) := l.serveAll s rest
    (w :: ws, l)

/-- No stream is full before there are nearly 2^63 commands. -/
theorem exhausted_not_mem {s : ℕ} {vs : List Visit} {l : IntegerLedger}
    (h : ∀ id, l.entries id + 2 * vs.length < 2 ^ 64) :
    Verdict.exhausted ∉ (l.serveAll s vs).1 := by
  induction vs generalizing l with
  | nil => exact List.not_mem_nil
  | cons v rest ih =>
    -- one command takes away two numbers at most, and so does its place in the list
    have hrest : ∀ id, (l.serve s v).2.entries id + 2 * rest.length < 2 ^ 64 := by
      intro id
      have hstep : (l.serve s v).2.entries id ≤ l.entries id + 2 := entries_step_le ..
      have hid := h id
      rw [List.length_cons] at hid
      omega
    intro hmem
    rcases List.mem_cons.mp hmem with hfirst | hlater
    · obtain ⟨id, hfull⟩ := exists_full_of_step hfirst.symm
      have hid := h id
      rw [List.length_cons] at hid
      unfold IsFull at hfull
      omega
    · exact ih hrest hlater

end IntegerLedger

end Bookkeeping
