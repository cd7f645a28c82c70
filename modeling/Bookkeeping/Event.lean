import Bookkeeping.Error
import Bookkeeping.Json.Record

/-! # Events

A fact about one account, and the payload under which it is stored: an object with one member for
each part of the fact. Amounts stand in it as strings.
-/
namespace Bookkeeping
open Bookkeeping.Json

inductive Event where
  | opened (initialBalance : Amount)
  | deposited (source : String) (amount : Amount)
  | debited (destination : AccountId) (amount : Amount)
  | credited (source : AccountId) (amount : Amount)
  deriving DecidableEq

namespace Event

def kind : Event → Event.Kind
  | .opened _ => .opening
  | .deposited .. => .deposit
  | .debited .. => .debit
  | .credited .. => .credit

def amount : Event → Amount
  | .opened a => a
  | .deposited _ a => a
  | .debited _ a => a
  | .credited _ a => a

/-- The stored form of an event besides its kind. Its members are in the order of their names. -/
def payload : Event → Json
  | .opened a => .object [("initial_balance", a.toJson)]
  | .deposited source a => .object [("amount", a.toJson), ("source", .string source)]
  | .debited destination a =>
    .object [("amount", a.toJson), ("destination_account_id", destination.toJson)]
  | .credited source a => .object [("amount", a.toJson), ("source_account_id", source.toJson)]

abbrev amountField (name : String) : Field := ⟨Amount, name, Amount.ofJson⟩

abbrev accountField (name : String) : Field := ⟨AccountId, name, AccountId.ofJson⟩

abbrev textField (name : String) : Field := ⟨String, name, readString⟩

def readPayload (kind : Event.Kind) (v : Json) : Except ReadError Event :=
  match kind with
  | .opening => do
    let (a, _) ← Record.read "InitialBalancePayload" [amountField "initial_balance"] v
    return .opened a
  | .deposit => do
    let (source, a, _) ←
      Record.read "DepositPayload" [textField "source", amountField "amount"] v
    return .deposited source a
  | .debit => do
    let (destination, a, _) ←
      Record.read "DebitPayload"
        [accountField "destination_account_id", amountField "amount"] v
    return .debited destination a
  | .credit => do
    let (source, a, _) ←
      Record.read "CreditPayload" [accountField "source_account_id", amountField "amount"] v
    return .credited source a

def decode (kind : Event.Kind) (payload : Json) : Except StoreError Event :=
  match readPayload kind payload with
  | .ok e => .ok e
  | .error cause => .error (.decode (.payload kind cause))

/-- Equal facts; amounts are compared by value. -/
def Same : Event → Event → Prop
  | .opened a, .opened b => a ≈ b
  | .deposited s a, .deposited t b => s = t ∧ a ≈ b
  | .debited s a, .debited t b => s = t ∧ a ≈ b
  | .credited s a, .credited t b => s = t ∧ a ≈ b
  | _, _ => False

instance : DecidableRel Same := fun a b => by
  unfold Same; split <;> infer_instance

end Event

def Event.Kind.parse (s : String) : Except StoreError Event.Kind :=
  match ofName? s with
  | some k => .ok k
  | none => .error (.decode (.unknownKind s))

def Aggregate.parse (s : String) : Except StoreError Aggregate :=
  match ofName? s with
  | some a => .ok a
  | none => .error (.decode (.unknownAggregate s))

end Bookkeeping
