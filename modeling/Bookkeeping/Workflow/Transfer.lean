import Bookkeeping.Workflow.Create

/-! # Moving money

Both rows are locked in ascending order of their ids, so that transfers in opposite directions do
not wait for each other. The transaction is checked again once the locks are held; balances and
numbers are read after that.
-/
namespace Bookkeeping

/-! The steps of moving money, the first one standing for the whole. -/

namespace Step

def transferring : Step := ⟨"transferring funds"⟩
def lockingAccount : Step := ⟨"locking account"⟩
def recheckingTransaction : Step := ⟨"rechecking transaction id"⟩
def loadingSource : Step := ⟨"loading source sequence"⟩
def loadingDestination : Step := ⟨"loading destination sequence"⟩
def placingDebit : Step := ⟨"placing debit events"⟩
def placingCredit : Step := ⟨"placing credit events"⟩
def updatingSource : Step := ⟨"updating source balance"⟩
def updatingDestination : Step := ⟨"updating destination balance"⟩
def committingTransfer : Step := ⟨"committing transfer"⟩

end Step

namespace Workflow
open Bookkeeping.Time

/-- The row of a lock, or nothing if the account does not exist. -/
def lockedRow : Except StoreError Account → Workflow (Option Account)
  | .ok a => pure (some a)
  | .error e => if e.isNotFound then pure none else reject (.internal .lockingAccount e)

/-- Locks two accounts, the one with the smaller id first. -/
def lockPair (u : UnitId) (source destination : AccountId) :
    Workflow (Option Account × Option Account) := do
  if source < destination then
    let low ← lockedRow (← ask (.lockAccount u source))
    let high ← lockedRow (← ask (.lockAccount u destination))
    return (low, high)
  else
    let low ← lockedRow (← ask (.lockAccount u destination))
    let high ← lockedRow (← ask (.lockAccount u source))
    return (high, low)

def requireRow (missing : LedgerError) : Option Account → Workflow Account
  | some a => pure a
  | none => reject missing

/-- Writes both batches and both rows, and commits. -/
def writeTransfer (u : UnitId) (debits credits : EntryBatch) (source destination : Account) :
    Workflow Unit := do
  let _ ← orInternal .placingDebit (← perform ((EntryBatch.place u).on debits)).1
  let _ ← orInternal .placingCredit (← perform ((EntryBatch.place u).on credits)).1
  orInternal .updatingSource (← ask (.upsertAccount u source))
  orInternal .updatingDestination (← ask (.upsertAccount u destination))
  orInternal .committingTransfer (← ask (.commit u))

def transferBatches (settings : Settings) (request : Request) (u : UnitId)
    (source destination : AccountId) (amount : Amount) : Workflow (EntryBatch × EntryBatch) := do
  let debits ← orInternal .loadingSource
    (← perform (EntryBatch.loadIn u source request.transaction settings.version))
  let credits ← orInternal .loadingDestination
    (← perform (EntryBatch.loadIn u destination request.transaction settings.version))
  let debits ← ofResult ((EntryBatch.record (.debited destination amount)).update debits)
  let credits ← ofResult ((EntryBatch.record (.credited source amount)).update credits)
  return (debits, credits)

def transfer (settings : Settings) (request : Request) (source destination : AccountId)
    (amount : Amount) : Workflow Unit := do
  let _ ← checkFresh settings request
  checkUnused request.transaction .checkingTransaction
    (← ask (.findByTransaction request.transaction))
  if source = destination then reject (.sameAccount source)
  let u ← orInternal .openingUnit (← ask .openUnit)
  let (sourceRow, destinationRow) ← lockPair u source destination
  let sourceRow ← requireRow (.sourceNotFound source) sourceRow
  let destinationRow ← requireRow (.destinationNotFound destination) destinationRow
  checkUnused request.transaction .recheckingTransaction
    (← ask (.findByTransactionIn u request.transaction))
  let now ← now
  let debited ← ofResult (sourceRow.debited amount now)
  let credited ← ofResult (destinationRow.credited amount now)
  let (debits, credits) ← transferBatches settings request u source destination amount
  writeTransfer u debits credits debited credited

end Workflow

end Bookkeeping
