import Bookkeeping.Store

/-! # Faults

Failures and delays armed on a store: operations that fail always, failures injected a number of
times, and a delay before each lock. A call meets them in this order: injected failures, the delay,
failing operations, the store.
-/
namespace Bookkeeping
open Bookkeeping.Time

inductive Effect where
  | fails (error : StoreError)
  | findsNothing
  deriving DecidableEq

/-- An effect on some of the calls to come: `skip` are let pass, the next `times` are hit. -/
structure Injection where
  operation : Operation
  effect : Effect
  skip : Nat
  times : Nat
  deriving DecidableEq

structure Faults where
  failing : List Operation := []
  lockDelay : Option Duration := none
  injections : List Injection := []

namespace Faults

/-- Lets a call meet the earliest injection for its operation that is not used up. -/
def meet (op : Operation) : List Injection → Option Effect × List Injection
  | [] => (none, [])
  | i :: rest =>
    if i.operation = op ∧ 0 < i.times then
      if 0 < i.skip then (none, { i with skip := i.skip - 1 } :: rest)
      else (some i.effect, { i with times := i.times - 1 } :: rest)
    else
      let (effect, rest) := meet op rest
      (effect, i :: rest)

/-- The operations that are checked for failing; the end of a unit of work is not. -/
def Fails (f : Faults) (op : Operation) : Prop :=
  op ∈ f.failing ∧ op ≠ .commit ∧ op ≠ .rollback

instance (f : Faults) (op : Operation) : Decidable (f.Fails op) :=
  inferInstanceAs (Decidable (_ ∧ _))

end Faults

def Effect.reply? : Effect → (c : Call) → Option c.Reply
  | .fails e, _ => some (.error e)
  | .findsNothing, .findByTransaction _ => some (.ok [])
  | .findsNothing, .findByTransactionIn .. => some (.ok [])
  | .findsNothing, _ => none

/-- A store with the faults armed on it. -/
structure Backend where
  store : Store := {}
  faults : Faults := {}

namespace Backend

def onStore (b : Backend) (f : Store → Store) : Backend := { b with store := f b.store }

/-- How far a call has come: not begun, asleep before its lock, or past all delays. -/
inductive Phase where
  | fresh
  | asleep (wake : Duration)
  | entered
  deriving DecidableEq

inductive Attempt (c : Call) where
  | replied (reply : c.Reply) (backend : Backend)
  | suspended (phase : Phase) (backend : Backend)

/-- A store that fails a commit or rollback drops the unit of work. -/
def dropEnding (b : Backend) : Call → Backend
  | .commit u | .rollback u => b.onStore (·.close u)
  | _ => b

def enter (b : Backend) (c : Call) : Attempt c :=
  if b.faults.Fails c.operation then
    .replied (.error (.failure c.operation .injected)) b
  else
    match b.store.respond c with
    | .replied reply store => .replied reply { b with store }
    | .waits store => .suspended .entered { b with store }

def enterAt (b : Backend) (now wake : Duration) (c : Call) : Attempt c :=
  if wake.nanos ≤ now.nanos then b.enter c else .suspended (.asleep wake) b

/-- Begins a call after its injections: a lock may have to sleep first. -/
def start (b : Backend) (now : Duration) (c : Call) : Attempt c :=
  match c, b.faults.lockDelay with
  | .lockAccount u id, some delay =>
    b.enterAt now ⟨now.nanos + delay.nanos⟩ (.lockAccount u id)
  | c, _ => b.enter c

/-- Goes on with a call as far as possible at a time. A lock that waits asks the store again. -/
def attempt (b : Backend) (now : Duration) (c : Call) : Phase → Attempt c
  | .fresh =>
    let (effect, injections) := Faults.meet c.operation b.faults.injections
    let b := { b with faults := { b.faults with injections } }
    match effect.bind (·.reply? c) with
    | some reply => .replied reply (b.dropEnding c)
    | none => b.start now c
  | .asleep wake => b.enterAt now wake c
  | .entered =>
    match b.store.respond c with
    | .replied reply store => .replied reply { b with store }
    | .waits store => .suspended .entered { b with store }

end Backend

end Bookkeeping
