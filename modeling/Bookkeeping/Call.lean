import Bookkeeping.Account
import Bookkeeping.Entry

/-! # Calls to a store

What the books are kept with. A unit of work is opened by one call and named in the later calls
that belong to it; it ends by its commit or rollback, or by being dropped.
-/
namespace Bookkeeping

structure UnitId where
  value : Nat
  deriving DecidableEq, Repr

inductive Call where
  | findAccount (id : AccountId)
  | findByTransaction (t : TransactionId)
  | findLast (id : AccountId)
  | openUnit
  | lockAccount (u : UnitId) (id : AccountId)
  | upsertAccount (u : UnitId) (a : Account)
  | append (u : UnitId) (drafts : List Draft)
  | findByTransactionIn (u : UnitId) (t : TransactionId)
  | findLastIn (u : UnitId) (id : AccountId)
  | commit (u : UnitId)
  | rollback (u : UnitId)

namespace Call

/-- The type of the answer to a call that succeeds. -/
abbrev Value : Call → Type
  | .findAccount _ | .lockAccount .. => Account
  | .findByTransaction _ | .findByTransactionIn .. => List Entry
  | .findLast _ | .findLastIn .. => Entry
  | .openUnit => UnitId
  | .upsertAccount .. | .append .. | .commit _ | .rollback _ => Unit

abbrev Reply (c : Call) : Type := Except StoreError c.Value

/-- The operation that a call asks for; reading through a unit of work is the same operation. -/
def operation : Call → Operation
  | .findAccount _ => .findAccount
  | .findByTransaction _ | .findByTransactionIn .. => .findByTransaction
  | .findLast _ | .findLastIn .. => .findLast
  | .openUnit => .openUnit
  | .lockAccount .. => .lockAccount
  | .upsertAccount .. => .upsertAccount
  | .append .. => .append
  | .commit _ => .commit
  | .rollback _ => .rollback

def unit? : Call → Option UnitId
  | .findAccount _ | .findByTransaction _ | .findLast _ | .openUnit => none
  | .lockAccount u _ | .upsertAccount u _ | .append u _ | .findByTransactionIn u _
  | .findLastIn u _ | .commit u | .rollback u => some u

end Call

end Bookkeeping
