import Bookkeeping.Workflow

/-! # Opening an account

The account must not exist and the transaction must be new. One unit of work then records the
opening balance and its deposit and inserts the row.
-/
namespace Bookkeeping

/-! The steps of opening an account, the first one standing for the whole. -/

namespace Step

def creatingAccount : Step := ⟨"creating account"⟩
def checkingForAccount : Step := ⟨"checking for existing account"⟩
def checkingTransaction : Step := ⟨"checking transaction id"⟩
def loadingSequence : Step := ⟨"loading event sequence"⟩
def openingUnit : Step := ⟨"opening unit of work"⟩
def placingOpening : Step := ⟨"placing opening events"⟩
def insertingAccount : Step := ⟨"inserting account"⟩
def committingCreation : Step := ⟨"committing account creation"⟩

end Step

namespace Workflow
open Bookkeeping.Time

def systemSource : String := "SYSTEM"

def checkAbsent (id : AccountId) : Except StoreError Account → Workflow Unit
  | .ok _ => reject (.alreadyExists id)
  | .error e =>
    if e.isNotFound then pure () else reject (.internal .checkingForAccount e)

def recordOpening (initial : Amount) : Method EntryBatch Failure Id Unit := do
  EntryBatch.record (.opened initial)
  EntryBatch.record (.deposited systemSource initial)

/-- Writes the opening events and the row, and commits. -/
def writeOpening (batch : EntryBatch) (account : Account) : Workflow Unit := do
  let u ← orInternal .openingUnit (← ask .openUnit)
  let _ ← orExists account.id .placingOpening (← perform ((EntryBatch.place u).on batch)).1
  orExists account.id .insertingAccount (← ask (.upsertAccount u account))
  orExists account.id .committingCreation (← ask (.commit u))

def create (settings : Settings) (request : Request) (id : AccountId) (initial : Amount) :
    Workflow Account := do
  let now ← checkFresh settings request
  checkAbsent id (← ask (.findAccount id))
  checkUnused request.transaction .checkingTransaction
    (← ask (.findByTransaction request.transaction))
  let batch ← orInternal .loadingSequence
    (← perform (EntryBatch.load id request.transaction settings.version))
  if batch.sequence ≠ .initial then reject (.alreadyExists id)
  let batch ← ofResult ((recordOpening initial).update batch)
  let account := Account.opened id initial now
  writeOpening batch account
  return account

end Workflow

end Bookkeeping
