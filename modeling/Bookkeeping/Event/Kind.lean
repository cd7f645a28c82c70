import Bookkeeping.Json.Reading

/-! # Kinds of events

The names under which events and the things they belong to are stored.
-/
namespace Bookkeeping
open Bookkeeping.Json

/-- What a stream of entries belongs to. -/
inductive Aggregate where
  | account
  deriving DecidableEq, Repr

namespace Aggregate

def name : Aggregate → String
  | .account => "account"

def named : List (String × Aggregate) := [(name .account, .account)]

def ofName? (s : String) : Option Aggregate := named.lookup s

def toJson (a : Aggregate) : Json := .string a.name

def ofJson : Reader Aggregate := readVariant named

end Aggregate

inductive Event.Kind where
  | opening
  | deposit
  | debit
  | credit
  deriving DecidableEq, Repr

namespace Event.Kind

def name : Event.Kind → String
  | .opening => "init_balance"
  | .deposit => "deposit_received"
  | .debit => "balance_debited"
  | .credit => "balance_credited"

instance : ToString Event.Kind := ⟨name⟩

/-- Every kind, in the order in which messages list them. -/
def all : List Event.Kind := [.opening, .deposit, .debit, .credit]

def named : List (String × Event.Kind) := all.map fun k => (k.name, k)

def ofName? (s : String) : Option Event.Kind := named.lookup s

def toJson (k : Event.Kind) : Json := .string k.name

def ofJson : Reader Event.Kind := readVariant named

end Event.Kind

end Bookkeeping
