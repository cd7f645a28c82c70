import Bookkeeping.Amount
import Bookkeeping.Event.Kind
import Bookkeeping.Identifier
import Bookkeeping.Time.Duration

/-! # Errors

Two layers of errors: those of a store, which tell what went wrong in keeping the books, and those
of a request, which tell why it had no effect. A store error inside a request error stands beside
the step that was running.
-/
namespace Bookkeeping
open Bookkeeping.Text Bookkeeping.Time

/-- What a store can be asked to do. -/
inductive Operation where
  | findAccount
  | lockAccount
  | upsertAccount
  | append
  | findByTransaction
  | findLast
  | openUnit
  | commit
  | rollback
  deriving DecidableEq, Repr

namespace Operation

def name : Operation → String
  | .findAccount => "find_account"
  | .lockAccount => "lock_account"
  | .upsertAccount => "upsert_account"
  | .append => "append_events"
  | .findByTransaction => "find_events_by_transaction"
  | .findLast => "find_last_event"
  | .openUnit => "begin_transaction"
  | .commit => "commit_transaction"
  | .rollback => "rollback_transaction"

def all : List Operation :=
  [.findAccount, .lockAccount, .upsertAccount, .append, .findByTransaction, .findLast, .openUnit,
    .commit, .rollback]

def ofName? (s : String) : Option Operation := all.find? (·.name == s)

end Operation

inductive ColumnFault where
  | unexpectedNull
  | notDecimal
  deriving DecidableEq, Repr

def ColumnFault.message : ColumnFault → String
  | .unexpectedNull => "unexpected null; try decoding as an `Option`"
  | .notDecimal => "value not representable as rust_decimal::Decimal"

inductive FailureCause where
  | injected
  | database (message : String)
  | column (name : String) (fault : ColumnFault)
  | reported (text : String)
  deriving DecidableEq, Repr

def FailureCause.message : FailureCause → String
  | .injected => "injected failure"
  | .database s => "error returned from database: " ++ s
  | .column name fault =>
    "error occurred while decoding column " ++ quoted name ++ ": " ++ fault.message
  | .reported s => s

inductive SerializationCause where
  | sequenceTooLarge (n : SequenceNumber)
  | reported (text : String)
  deriving DecidableEq

def SerializationCause.message : SerializationCause → String
  | .sequenceTooLarge n => "sequence number " ++ n.text ++ " exceeds BIGINT range"
  | .reported s => s

inductive DecodeCause where
  | unknownAggregate (name : String)
  | unknownKind (name : String)
  | payload (kind : Event.Kind) (cause : Json.ReadError)
  | negativeSequence (n : Int)
  | column (name : String) (refusal : Refusal)
  | reported (text : String)
  deriving DecidableEq

def DecodeCause.message : DecodeCause → String
  | .unknownAggregate s => "unknown aggregate type '" ++ s ++ "'"
  | .unknownKind s => "unknown event kind '" ++ s ++ "'"
  | .payload kind cause => "invalid " ++ kind.name ++ " payload: " ++ cause.message
  | .negativeSequence n => "negative sequence number " ++ integerText n
  | .column name r => "invalid " ++ name ++ ": " ++ r.message
  | .reported s => s

/-- What went wrong in a store. That something is missing is a normal answer to a lookup. -/
inductive StoreError where
  | notFound (what : String)
  | conflict (operation : Operation)
  | serialization (cause : SerializationCause)
  | decode (cause : DecodeCause)
  | failure (operation : Operation) (cause : FailureCause)
  | timeout (after : Duration)
  deriving DecidableEq

namespace StoreError

def message : StoreError → String
  | .notFound what => what ++ " not found"
  | .conflict op => "conflicting write during " ++ op.name
  | .serialization cause => "failed to serialize event payload: " ++ cause.message
  | .decode cause => "failed to decode stored data: " ++ cause.message
  | .failure op cause => "store failure during " ++ op.name ++ ": " ++ cause.message
  | .timeout d => "operation timed out after " ++ d.text

def isNotFound : StoreError → Bool
  | .notFound _ => true
  | _ => false

def isConflict : StoreError → Bool
  | .conflict _ => true
  | _ => false

end StoreError

structure Step where
  description : String
  deriving DecidableEq, Repr

inductive LedgerError where
  | alreadyExists (account : AccountId)
  | alreadyRecorded (transaction : TransactionId)
  | invalidRequestTime (requested now : Instant) (threshold : Duration)
  | sameAccount (account : AccountId)
  | accountNotFound (account : AccountId)
  | sourceNotFound (account : AccountId)
  | destinationNotFound (account : AccountId)
  | insufficientBalance (account : AccountId) (balance : Decimal) (requested : Amount)
  | internal (step : Step) (source : StoreError)
  deriving DecidableEq

inductive ErrorKind where
  | notFound
  | alreadyExists
  | alreadyRecorded
  | invalidRequestTime
  | sameAccount
  | insufficientBalance
  | internal
  deriving DecidableEq, Repr

namespace LedgerError

def kind : LedgerError → ErrorKind
  | .alreadyExists _ => .alreadyExists
  | .alreadyRecorded _ => .alreadyRecorded
  | .invalidRequestTime .. => .invalidRequestTime
  | .sameAccount _ => .sameAccount
  | .accountNotFound _ | .sourceNotFound _ | .destinationNotFound _ => .notFound
  | .insufficientBalance .. => .insufficientBalance
  | .internal .. => .internal

def message : LedgerError → String
  | .alreadyExists id => "account " ++ id.text ++ " already exists"
  | .alreadyRecorded t => "transaction " ++ t.text ++ " has already been processed"
  | .invalidRequestTime requested now threshold =>
    "request time " ++ requested.messageText ++ " is outside the allowed window of " ++
      threshold.text ++ " around " ++ now.messageText
  | .sameAccount id => "cannot transfer from account " ++ id.text ++ " to itself"
  | .accountNotFound id => "account " ++ id.text ++ " not found"
  | .sourceNotFound id => "source account " ++ id.text ++ " not found"
  | .destinationNotFound id => "destination account " ++ id.text ++ " not found"
  | .insufficientBalance id balance requested =>
    "insufficient balance in account " ++ id.text ++ ": balance " ++ balance.text ++
      ", requested " ++ requested.text
  | .internal step source =>
    "internal error while " ++ step.description ++ ": " ++ source.message

def source? : LedgerError → Option StoreError
  | .internal _ source => some source
  | _ => none

end LedgerError

/-- What grew past its range. Nothing comes of the computation. -/
inductive Overflow where
  | balance
  | sequence
  deriving DecidableEq, Repr

def Overflow.message : Overflow → String
  | .balance => "Addition overflowed"
  | .sequence => "attempt to add with overflow"

inductive Failure where
  | rejected (error : LedgerError)
  | overflow (what : Overflow)
  deriving DecidableEq

end Bookkeeping
