import Bookkeeping.Sql.Statement

/-! # Rows

Columns are read in their order, each as the type it has in the table; what they mean is checked
after that.
-/
namespace Bookkeeping.Sql
open Bookkeeping.Time

abbrev Row := List Value

structure AccountRow where
  id : Json.Signed64
  balance : Decimal
  createdAt : Instant
  updatedAt : Instant

structure EntryRow where
  id : Json.Signed64
  transaction : String
  sequence : Json.Signed64
  account : Json.Signed64
  aggregate : String
  kind : String
  payload : Json
  version : String
  storedAt : Instant

abbrev ColumnReader := StateT (List (String × Value)) (Except FailureCause)

/-- Reads the next column. A value of another type, like a missing one, counts as null. -/
def nextColumn {α : Type} (read : Value → Except ColumnFault α) : ColumnReader α := do
  match ← get with
  | [] => throw (.column "" .unexpectedNull)
  | (name, value) :: rest =>
    set rest
    match read value with
    | .ok a => return a
    | .error fault => throw (.column name fault)

def integerColumn : ColumnReader Json.Signed64 :=
  nextColumn fun
    | .integer n => .ok n
    | _ => .error .unexpectedNull

def textColumn : ColumnReader String :=
  nextColumn fun
    | .text s => .ok s
    | _ => .error .unexpectedNull

def decimalColumn : ColumnReader Decimal :=
  nextColumn fun
    | .numeric x => x.decimal?.elim (.error .notDecimal) .ok
    | _ => .error .unexpectedNull

def timeColumn : ColumnReader Instant :=
  nextColumn fun
    | .time micros => .ok (.ofMicros micros)
    | _ => .error .unexpectedNull

/-- Reads a JSON value; a missing one is the JSON value null. -/
def jsonColumn : ColumnReader Json :=
  nextColumn fun
    | .json v => .ok v
    | .null => .ok .null
    | _ => .error .unexpectedNull

/-- A row with the names of its columns; columns that are missing are null. -/
def named (columns : List String) (row : Row) : List (String × Value) :=
  columns.zip (row ++ List.replicate columns.length .null)

def AccountRow.read (row : Row) : Except FailureCause AccountRow :=
  let reader : ColumnReader AccountRow := do
    let id ← integerColumn
    let balance ← decimalColumn
    let createdAt ← timeColumn
    let updatedAt ← timeColumn
    return { id, balance, createdAt, updatedAt }
  reader.run' (named accountColumns row)

def EntryRow.read (row : Row) : Except FailureCause EntryRow :=
  let reader : ColumnReader EntryRow := do
    let id ← integerColumn
    let transaction ← textColumn
    let sequence ← integerColumn
    let account ← integerColumn
    let aggregate ← textColumn
    let kind ← textColumn
    let payload ← jsonColumn
    let version ← textColumn
    let storedAt ← timeColumn
    return { id, transaction, sequence, account, aggregate, kind, payload, version, storedAt }
  reader.run' (named entryColumns row)

def accepted {α : Type} (name : String) : Except Refusal α → Except StoreError α
  | .ok a => .ok a
  | .error r => .error (.decode (.column name r))

def sequenceOf (n : Json.Signed64) : Except StoreError SequenceNumber :=
  if h : 0 ≤ n.val then
    .ok ⟨n.val.toNat, by have := n.property.2; omega⟩
  else .error (.decode (.negativeSequence n.val))

def AccountRow.account (r : AccountRow) : Except StoreError Account := do
  let id ← accepted "account id" (AccountId.accept r.id)
  return { id, balance := r.balance, createdAt := r.createdAt, updatedAt := r.updatedAt }

def EntryRow.entry (r : EntryRow) : Except StoreError Entry := do
  let sequence ← sequenceOf r.sequence
  let transaction ← accepted "transaction_id" (TransactionId.accept r.transaction)
  let account ← accepted "account id" (AccountId.accept r.account)
  let aggregate ← Aggregate.parse r.aggregate
  let kind ← Event.Kind.parse r.kind
  let version ← accepted "version" (SchemaVersion.accept r.version)
  let draft : Draft :=
    { transaction, sequence, account, aggregate, kind, payload := r.payload, version }
  return draft.stored ⟨r.id.val⟩ (some r.storedAt)

end Bookkeeping.Sql
