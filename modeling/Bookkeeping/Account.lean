import Bookkeeping.Error
import Bookkeeping.Json.Record
import Bookkeeping.Method

/-! # Accounts

The row kept for an account: its balance and the times of its opening and of its last change.
-/
namespace Bookkeeping
open Bookkeeping.Json Bookkeeping.Time

structure Account where
  id : AccountId
  balance : Decimal
  createdAt : Instant
  updatedAt : Instant
  deriving DecidableEq

namespace Account

def opened (id : AccountId) (initialBalance : Amount) (now : Instant) : Account :=
  ⟨id, initialBalance.value, now, now⟩

def Covers (a : Account) (amount : Amount) : Prop := amount.value ≤ a.balance

instance (a : Account) (amount : Amount) : Decidable (a.Covers amount) :=
  inferInstanceAs (Decidable (amount.value ≤ a.balance))

/-- Sets the balance to the result of a computation, if that is in range. -/
def setBalance (result : Option Decimal) : Method Account Failure Id Unit :=
  match result with
  | some balance => modify fun a => { a with balance }
  | none => throw (.overflow .balance)

/-- Takes an amount out of the account, if the balance covers it. -/
def debit (amount : Amount) (now : Instant) : Method Account Failure Id Unit := do
  let a ← get
  if ¬a.Covers amount then throw (.rejected (.insufficientBalance a.id a.balance amount))
  setBalance (a.balance.sub? amount.value)
  modify fun a => { a with updatedAt := now }

theorem on_debit {a : Account} {amount : Amount} {now : Instant} : (debit amount now).on a =
    if a.Covers amount then
      match a.balance.sub? amount.value with
      | some balance => (.ok (), { a with balance, updatedAt := now })
      | none => (.error (.overflow .balance), a)
    else (.error (.rejected (.insufficientBalance a.id a.balance amount)), a) := by
  by_cases h : a.Covers amount
  · cases hs : a.balance.sub? amount.value <;> simp [debit, setBalance, h, hs] <;> rfl
  · simp [debit, h]
    rfl

def credit (amount : Amount) (now : Instant) : Method Account Failure Id Unit := do
  setBalance ((← get).balance.add? amount.value)
  modify fun a => { a with updatedAt := now }

theorem on_credit {a : Account} {amount : Amount} {now : Instant} : (credit amount now).on a =
    match a.balance.add? amount.value with
    | some balance => (.ok (), { a with balance, updatedAt := now })
    | none => (.error (.overflow .balance), a) := by
  cases hs : a.balance.add? amount.value <;> simp [credit, setBalance, hs] <;> rfl

def debited (a : Account) (amount : Amount) (now : Instant) : Except Failure Account :=
  (debit amount now).update a

def credited (a : Account) (amount : Amount) (now : Instant) : Except Failure Account :=
  (credit amount now).update a

theorem debited_eq {a : Account} {amount : Amount} {now : Instant} : a.debited amount now =
    if a.Covers amount then
      match a.balance.sub? amount.value with
      | some balance => .ok { a with balance, updatedAt := now }
      | none => .error (.overflow .balance)
    else .error (.rejected (.insufficientBalance a.id a.balance amount)) := by
  rw [debited, Method.update, on_debit]
  by_cases h : a.Covers amount
  · rw [if_pos h, if_pos h]
    cases a.balance.sub? amount.value <;> rfl
  · rw [if_neg h, if_neg h]
    rfl

theorem credited_eq {a : Account} {amount : Amount} {now : Instant} : a.credited amount now =
    match a.balance.add? amount.value with
    | some balance => .ok { a with balance, updatedAt := now }
    | none => .error (.overflow .balance) := by
  rw [credited, Method.update, on_credit]
  cases a.balance.add? amount.value <;> rfl

def toJson (a : Account) : Json :=
  .object [("balance", .string a.balance.text), ("created_at", .string a.createdAt.text),
    ("id", a.id.toJson), ("updated_at", .string a.updatedAt.text)]

def fields : List Field :=
  [⟨AccountId, "id", AccountId.ofJson⟩, ⟨Decimal, "balance", readDecimal⟩,
    ⟨Instant, "created_at", readInstant⟩, ⟨Instant, "updated_at", readInstant⟩]

def ofJson : Reader Account := fun v => do
  let (id, balance, createdAt, updatedAt, _) ← Record.read "Account" fields v
  return { id, balance, createdAt, updatedAt }

end Account

end Bookkeeping
