import Bookkeeping.Sql.Connection

/-! # Connections to a database

How connections are kept, and what can go wrong outside of calls.
-/
namespace Bookkeeping.Sql
open Bookkeeping.Time

structure PoolSettings where
  maxConnections : Nat
  acquireTimeout : Duration
  idleTimeout : Duration
  deriving DecidableEq, Repr

def PoolSettings.standard : PoolSettings := ⟨10, .ofSeconds 30, .ofSeconds 600⟩

inductive SetupError where
  | connection
  | migration
  | ping
  deriving DecidableEq, Repr

def SetupError.message : SetupError → String
  | .connection => "failed to create postgres connection pool"
  | .migration => "failed to run postgres migrations"
  | .ping => "postgres health check failed"

def ping : Talk (Except SetupError Unit) := do
  match ← send .ping with
  | .ok _ => return .ok ()
  | .error _ => return .error .ping

/-- Tries to bring the schema up to date over replies that hold no schema. -/
def migrate : Talk (Except SetupError Unit) := do
  let _ ← send .currentDatabase
  return .error .migration

end Bookkeeping.Sql
