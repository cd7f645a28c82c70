import Bookkeeping.Call
import Bookkeeping.Sql.Numeric

/-! # Statements

The statement of each call, with numbered parameters. All entries of one append go into one
statement; each of them has seven parameters.
-/
namespace Bookkeeping.Sql
open Bookkeeping.Time Bookkeeping.Text

inductive Value where
  | null
  | integer (n : Json.Signed64)
  | text (s : String)
  | numeric (x : Numeric)
  /-- Microseconds since 1970. -/
  | time (micros : Int)
  | json (v : Json)

def Value.toJson : Value → Json
  | .null => .null
  | .integer n => .integer n.val
  | .text s => .string s
  | .numeric x => .string x.text
  | .time micros => .integer micros
  | .json v => v

structure Statement where
  text : String
  parameters : List Value := []

/-- Microseconds from 1970 to the day from which times are counted, 2000-01-01. -/
def epochMicros : Int := 946684800000000

/-- An instant in whole microseconds, cut off toward 2000-01-01. -/
def timeMicros (t : Instant) : Int :=
  epochMicros + Int.tdiv (t.toNanos - epochMicros * 1000) 1000

def commaList (names : List String) : String := String.intercalate ", " names

def accountColumns : List String := ["id", "balance", "created_at", "updated_at"]

def draftColumns : List String :=
  ["transaction_id", "sequence_number", "aggregate_id", "aggregate_type", "event_type",
    "event_data", "version"]

def entryColumns : List String := ["id"] ++ draftColumns ++ ["created_at"]

def placeholders (first count : Nat) : String :=
  "(" ++ commaList ((List.range count).map fun i => "$" ++ naturalText (first + i)) ++ ")"

def sequenceValue (n : SequenceNumber) : Except StoreError Value :=
  if h : n.value < 9223372036854775808 then .ok (.integer ⟨n.value, by omega⟩)
  else .error (.serialization (.sequenceTooLarge n))

def draftValues (d : Draft) (sequence : Value) : List Value :=
  [.text d.transaction.text, sequence, .integer d.account.raw, .text d.aggregate.name,
    .text d.kind.name, .json d.payload, .text d.version.text]

def accountValues (a : Account) : List Value :=
  [.integer a.id.raw, .numeric (.ofDecimal a.balance), .time (timeMicros a.createdAt),
    .time (timeMicros a.updatedAt)]

namespace Statement

def openUnit : Statement := ⟨"BEGIN", []⟩

def commit : Statement := ⟨"COMMIT", []⟩

def rollback : Statement := ⟨"ROLLBACK", []⟩

def ping : Statement := ⟨"SELECT 1", []⟩

def currentDatabase : Statement := ⟨"SELECT current_database()", []⟩

def findAccount (id : AccountId) : Statement :=
  ⟨"SELECT " ++ commaList accountColumns ++ " FROM accounts WHERE id = $1", [.integer id.raw]⟩

def lockAccount (id : AccountId) : Statement :=
  ⟨(findAccount id).text ++ " FOR UPDATE", [.integer id.raw]⟩

def upsertAccount (a : Account) : Statement :=
  ⟨"INSERT INTO accounts (" ++ commaList accountColumns ++ ") VALUES " ++ placeholders 1 4 ++
    " ON CONFLICT (id) DO UPDATE SET balance = EXCLUDED.balance, " ++
    "updated_at = EXCLUDED.updated_at", accountValues a⟩

def findByTransaction (t : TransactionId) : Statement :=
  ⟨"SELECT " ++ commaList entryColumns ++ " FROM events WHERE transaction_id = $1 ORDER BY id",
    [.text t.text]⟩

def findLast (id : AccountId) : Statement :=
  ⟨"SELECT " ++ commaList entryColumns ++
    " FROM events WHERE aggregate_id = $1 ORDER BY sequence_number DESC LIMIT 1",
    [.integer id.raw]⟩

def draftGroups (count : Nat) : String :=
  commaList ((List.range count).map fun i => placeholders (7 * i + 1) 7)

/-- Inserts drafts. All of their numbers are checked first. -/
def append (drafts : List Draft) : Except StoreError Statement := do
  let sequences ← drafts.mapM fun d => sequenceValue d.sequence
  return ⟨"INSERT INTO events (" ++ commaList draftColumns ++ ") VALUES " ++
    draftGroups drafts.length, (drafts.zipWith draftValues sequences).flatten⟩

end Statement

end Bookkeeping.Sql
