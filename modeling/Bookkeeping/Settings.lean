import Bookkeeping.Identifier
import Bookkeeping.Json.Record
import Bookkeeping.Time.Duration

/-! # Settings

How far the time of a request may be off, how long a request may take, and the version stamped on
new entries. Settings come from code, from data, or from named variables.
-/
namespace Bookkeeping
open Bookkeeping.Json Bookkeeping.Text Bookkeeping.Time

structure Millis (low high : Nat) where
  value : Nat
  low_le : low ≤ value
  le_high : value ≤ high
  deriving DecidableEq

namespace Millis

variable {low high : Nat}

def accept (subject : String) (low high n : Nat) : Except Refusal (Millis low high) :=
  if h : low ≤ n then
    if h' : n ≤ high then .ok ⟨n, h, h'⟩ else .error ⟨subject, .atMost high⟩
  else .error ⟨subject, .atLeast low⟩

def duration (m : Millis low high) : Duration := .ofMillis m.value

def toJson (m : Millis low high) : Json := .integer m.value

end Millis

/-- How far the time of a request may be from now: 1 ms to 24 hours. -/
abbrev FreshnessThreshold := Millis 1 86400000

def FreshnessThreshold.accept (n : Nat) : Except Refusal FreshnessThreshold :=
  Millis.accept "RequestTimeThresholdMs" 1 86400000 n

/-- How long a request may take: 100 ms to 10 minutes. -/
abbrev OperationTimeout := Millis 100 600000

def OperationTimeout.accept (n : Nat) : Except Refusal OperationTimeout :=
  Millis.accept "OperationTimeoutMs" 100 600000 n

def FreshnessThreshold.ofJson : Reader FreshnessThreshold :=
  readAccepted readUnsigned64 fun n => accept n.val

def OperationTimeout.ofJson : Reader OperationTimeout :=
  readAccepted readUnsigned64 fun n => accept n.val

structure Settings where
  threshold : FreshnessThreshold
  timeout : OperationTimeout
  version : SchemaVersion
  deriving DecidableEq

namespace Settings

/-- Five minutes, thirty seconds and the standard version. -/
def standard : Settings :=
  ⟨⟨300000, by decide, by decide⟩, ⟨30000, by decide, by decide⟩, .standard⟩

def toJson (s : Settings) : Json :=
  .object [("event_version", s.version.toJson), ("operation_timeout", s.timeout.toJson),
    ("request_time_threshold", s.threshold.toJson)]

def fields : List Field :=
  [⟨FreshnessThreshold, "request_time_threshold", FreshnessThreshold.ofJson⟩,
    ⟨OperationTimeout, "operation_timeout", OperationTimeout.ofJson⟩,
    ⟨SchemaVersion, "event_version", SchemaVersion.ofJson⟩]

def ofJson : Reader Settings := fun v => do
  let (threshold, timeout, version, _) ← Record.read "LedgerConfig" fields v
  return { threshold, timeout, version }

inductive Reason where
  | notNatural (cause : NaturalError)
  | refused (refusal : Refusal)
  deriving DecidableEq

def Reason.message : Reason → String
  | .notNatural cause => cause.message
  | .refused r => r.message

structure VariableError where
  name : String
  value : String
  reason : Reason
  deriving DecidableEq

def VariableError.message (e : VariableError) : String :=
  "invalid value '" ++ e.value ++ "' for " ++ e.name ++ ": " ++ e.reason.message

def thresholdVariable : String := "LEDGER_REQUEST_TIME_THRESHOLD_MS"

def timeoutVariable : String := "LEDGER_OPERATION_TIMEOUT_MS"

def versionVariable : String := "LEDGER_EVENT_VERSION"

/-- Reads a trimmed natural number of 64 bits and accepts it. -/
def readMillis {α : Type} (accept : Nat → Except Refusal α) (s : String) : Except Reason α :=
  match parseNatural 18446744073709551615 (trim s).toList with
  | .error cause => .error (.notNatural cause)
  | .ok n => (accept n).mapError .refused

def readVariable {α : Type} (lookup : String → Option String) (name : String) (default : α)
    (read : String → Except Reason α) : Except VariableError α :=
  match lookup name with
  | none => .ok default
  | some value => (read value).mapError fun reason => ⟨name, value, reason⟩

/-- The settings in named variables; the first variable that is not accepted counts. -/
def ofVariables (lookup : String → Option String) : Except VariableError Settings := do
  let threshold ←
    readVariable lookup thresholdVariable standard.threshold (readMillis FreshnessThreshold.accept)
  let timeout ←
    readVariable lookup timeoutVariable standard.timeout (readMillis OperationTimeout.accept)
  let version ←
    readVariable lookup versionVariable standard.version
      fun s => (SchemaVersion.accept s).mapError .refused
  return { threshold, timeout, version }

end Settings

end Bookkeeping
