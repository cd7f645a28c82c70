import Bookkeeping.Proofs.Lockstep
import Bookkeeping.Proofs.OpeningGates
import Bookkeeping.Proofs.StoreUse
import Bookkeeping.Session

/-! # Stores that fail on demand

A store that is armed to fail some operations and to delay locks is used by calls that may be under way
for some time, while what is armed changes. A call that is let through is answered by the store itself,
and one that is not has not happened for it. The end of a unit of work is always let through.
-/
namespace Bookkeeping
open Bookkeeping.Time

/-! ## One call -/

namespace Backend

variable {b : Backend} {c : Call} {now : Duration} {phase : Phase}

def ask (b : Backend) (c : Call) : Attempt c :=
  match b.store.respond c with
  | .replied reply store => .replied reply { b with store }
  | .waits store => .suspended .entered { b with store }

/-- How long a call has to sleep. -/
def sleep (b : Backend) : Call → Nat
  | .lockAccount .. => (b.faults.lockDelay.getD ⟨0⟩).nanos
  | _ => 0

/-- A call has slept enough. -/
def Due (b : Backend) (now : Duration) (c : Call) : Phase → Prop
  | .fresh => b.sleep c = 0
  | .asleep wake => wake.nanos ≤ now.nanos
  | .entered => True

instance (b : Backend) (now : Duration) (c : Call) (phase : Phase) : Decidable (b.Due now c phase) :=
  match phase with
  | .fresh => inferInstanceAs (Decidable (b.sleep c = 0))
  | .asleep wake => inferInstanceAs (Decidable (wake.nanos ≤ now.nanos))
  | .entered => inferInstanceAs (Decidable True)

/-- A call is let through. One that waits for a lock was let through before. -/
def Asks (b : Backend) (now : Duration) (c : Call) (phase : Phase) : Prop :=
  b.Due now c phase ∧ (phase = .entered ∨ ¬b.faults.Fails c.operation)

instance (b : Backend) (now : Duration) (c : Call) (phase : Phase) : Decidable (b.Asks now c phase) :=
  inferInstanceAs (Decidable (_ ∧ _))

theorem enter_of_fails (h : b.faults.Fails c.operation) :
    b.enter c = .replied (.error c.operation.injected) b := if_pos h

theorem enter_of_not_fails (h : ¬b.faults.Fails c.operation) : b.enter c = b.ask c := if_neg h

theorem start_eq_sleep (b : Backend) (now : Duration) (c : Call) :
    b.start now c =
      if b.sleep c = 0 then b.enter c else .suspended (.asleep ⟨now.nanos + b.sleep c⟩) b := by
  cases c with
  | lockAccount u id =>
    cases hd : b.faults.lockDelay with
    | none => simp [start, sleep, hd]
    | some delay => simp [start, sleep, hd, enterAt]
  | _ => rfl

theorem attempt_cases (h : b.faults.injections = []) (now : Duration) (c : Call) (phase : Phase) :
    (b.Asks now c phase ∧ b.attempt now c phase = b.ask c) ∨
    (¬b.Asks now c phase ∧ b.faults.Fails c.operation ∧
      b.attempt now c phase = .replied (.error c.operation.injected) b) ∨
    ¬b.Asks now c phase ∧ ∃ wake, b.attempt now c phase = .suspended (.asleep wake) b := by
  have henter (hphase : phase ≠ .entered) (hdue : b.Due now c phase) :
      (b.Asks now c phase ∧ b.enter c = b.ask c) ∨ (¬b.Asks now c phase ∧ b.faults.Fails c.operation ∧
        b.enter c = .replied (.error c.operation.injected) b) := by
    by_cases hfails : b.faults.Fails c.operation
    · have hasks : ¬b.Asks now c phase := fun ha ↦ ha.2.elim hphase (absurd hfails)
      exact .inr ⟨hasks, hfails, enter_of_fails hfails⟩
    · exact .inl ⟨⟨hdue, .inr hfails⟩, enter_of_not_fails hfails⟩
  cases phase with
  | fresh =>
    rw [attempt_uninjected h, start_eq_sleep]
    split
    · rename_i hdue
      exact (henter (by simp) hdue).imp_right .inl
    · rename_i hdue
      exact .inr (.inr ⟨fun ha ↦ hdue ha.1, _, rfl⟩)
  | asleep wake =>
    rw [attempt, enterAt]
    split
    · rename_i hdue
      exact (henter (by simp) hdue).imp_right .inl
    · rename_i hdue
      exact .inr (.inr ⟨fun ha ↦ hdue ha.1, wake, rfl⟩)
  | entered => exact .inl ⟨⟨trivial, .inl rfl⟩, rfl⟩

def abandon (b : Backend) (c : Call) : Backend :=
  match c.unit? with
  | some u => b.onStore (·.stopWaiting u)
  | none => b

/-- The sleep before a lock does not show in the end. -/
theorem settle_eq (h : b.faults.injections = []) (c : Call) :
    b.settle c = match b.enter c with
      | .replied r b' => (some r, b')
      | .suspended _ b' => (none, b'.abandon c) := by
  have hfresh : b.attempt ⟨0⟩ c .fresh = b.start ⟨0⟩ c := attempt_uninjected h ⟨0⟩ c
  rw [start_eq_sleep] at hfresh
  unfold settle
  split at hfresh
  · rw [hfresh]
    cases henter : b.enter c with
    | replied r b' => rfl
    | suspended phase b' =>
      obtain ⟨rfl, -⟩ := enter_suspended henter
      rfl
  · have hwake (wake : Duration) : b.attempt wake c (.asleep wake) = b.enter c := if_pos le_rfl
    rw [hfresh]
    simp only [hwake]
    cases b.enter c <;> rfl

theorem settle_of_fails (h : b.faults.injections = []) (hfails : b.faults.Fails c.operation) :
    b.settle c = (some (.error c.operation.injected), b) := by
  rw [settle_eq h, enter_of_fails hfails]

theorem settle_of_not_fails (h : b.faults.injections = []) (hfails : ¬b.faults.Fails c.operation) :
    b.settle c = ((settle { store := b.store } c).1,
      { b with store := (settle { store := b.store } c).2.store }) := by
  have hbare : enter { store := b.store } c = ask { store := b.store } c :=
    enter_of_not_fails (by simp [Faults.Fails])
  rw [settle_eq h, settle_eq rfl, enter_of_not_fails hfails, hbare, ask, ask]
  cases b.store.respond c with
  | replied r s => rfl
  | waits s =>
    simp only [abandon]
    split <;> rfl

end Backend

namespace Store

variable {s s' : Store} {c : Call} {e : StoreError}

theorem foundOr_eq_error {α : Type} {what : String} {o : Option α} (h : foundOr what o = .error e) :
    e = .notFound what := by
  cases o with
  | none => exact (Except.error.inj h).symm
  | some a => cases h

theorem error_of_respond (h : s.respond c = .replied (.error e) s') :
    (∃ what, e = .notFound what) ∨ ∃ op, e = .conflict op := by
  have hfound {α : Type} {what : String} {o : Option α} (h : foundOr what o = .error e) :
      (∃ what, e = .notFound what) ∨ ∃ op, e = .conflict op := .inl ⟨what, foundOr_eq_error h⟩
  cases c with
  | lockAccount u id => exact hfound (lock_replied h).1.symm
  | append u drafts =>
    rcases s.append_cases u drafts with ⟨_, _, -, he⟩ | ⟨_, he⟩ <;>
      simp only [respond, he] at h <;> cases h
    exact .inr ⟨_, rfl⟩
  | commit u =>
    rcases s.commit_cases u with ⟨-, he⟩ | he <;> simp only [respond, he] at h <;> cases h
    exact .inr ⟨_, rfl⟩
  | findAccount id | findLast id | findLastIn u id =>
    simp only [respond, Response.replied.injEq] at h
    exact hfound h.1
  | _ => cases h

end Store

/-! ## Many calls -/

/-- What may be done with a store that fails on demand. -/
inductive Handling where
  | call (now : Duration) (c : Call)
  /-- A call that is under way is attempted again. -/
  | resume (now : Duration) (i : Nat)
  | drop (u : UnitId)
  | giveUp (u : UnitId)
  | failOn (op : Operation)
  | delayLocks (delay : Duration)
  | heal

/-- A store with what is armed on it, the calls that are under way, and the replies it has given. -/
structure FaultyUsage where
  store : Store
  failing : List Operation := []
  lockDelay : Option Duration := none
  pending : List (Call × Backend.Phase) := []
  history : List Observation := []

def Observation.isInjected : Observation → Bool
  | .replied c (.error e) => e = c.operation.injected
  | _ => false

theorem Store.isInjected_of_respond {s s' : Store} {c : Call} {r : c.Reply}
    (h : s.respond c = .replied r s') : (Observation.replied c r).isInjected = false := by
  cases r with
  | ok a => rfl
  | error e => rcases Store.error_of_respond h with ⟨what, rfl⟩ | ⟨op, rfl⟩ <;> rfl

theorem Observation.isInjected_injected (c : Call) :
    (Observation.replied c (.error c.operation.injected)).isInjected = true :=
  decide_eq_true rfl

namespace FaultyUsage

variable {x : FaultyUsage} {y : Usage} {c : Call} {now : Duration} {phase : Backend.Phase}

def backend (x : FaultyUsage) : Backend :=
  ⟨x.store, { failing := x.failing, lockDelay := x.lockDelay }⟩

def attempt (x : FaultyUsage) (now : Duration) (c : Call) (phase : Backend.Phase) : FaultyUsage :=
  if x.store.Admits (.call c) then
    match x.backend.attempt now c phase with
    | .replied r b => { x with store := b.store, history := x.history ++ [.replied c r] }
    | .suspended phase b => { x with store := b.store, pending := x.pending ++ [(c, phase)] }
  else x

def stop (x : FaultyUsage) (u : UnitId) : FaultyUsage :=
  { x with pending := x.pending.filter (·.1.unit? ≠ some u) }

def step (x : FaultyUsage) : Handling → FaultyUsage
  | .call now c => x.attempt now c .fresh
  | .resume now i =>
    match x.pending[i]? with
    | none => x
    | some (c, phase) => attempt { x with pending := x.pending.eraseIdx i } now c phase
  | .drop u => if x.store.Admits (.drop u) then { x.stop u with store := x.store.close u } else x
  | .giveUp u => if x.store.Admits (.giveUp u) then { x.stop u with store := x.store.stopWaiting u } else x
  | .failOn op => { x with failing := op :: x.failing }
  | .delayLocks delay => { x with lockDelay := some delay }
  | .heal => { x with failing := [], lockDelay := none }

def run (x : FaultyUsage) (handlings : List Handling) : FaultyUsage := handlings.foldl step x

def asked (x : FaultyUsage) (now : Duration) (c : Call) (phase : Backend.Phase) : List Access :=
  if x.backend.Asks now c phase then [.call c] else []

def passed (x : FaultyUsage) : Handling → List Access
  | .call now c => x.asked now c .fresh
  | .resume now i =>
    match x.pending[i]? with
    | none => []
    | some (c, phase) => x.asked now c phase
  | .drop u => [.drop u]
  | .giveUp u => [.giveUp u]
  | .failOn _ | .delayLocks _ | .heal => []

/-- All that gets through to the store during a run. -/
def passedAll (x : FaultyUsage) : List Handling → List Access
  | [] => []
  | a :: rest => x.passed a ++ (x.step a).passedAll rest

/-! ### Beside the store by itself -/

/-- A call of one of these operations, none of which ends a unit of work. -/
def Blamed (may : Operation → Prop) (o : Observation) : Prop :=
  ∃ (c : Call) (r : c.Reply), o = .replied c r ∧ may c.operation ∧
    c.operation ≠ .commit ∧ c.operation ≠ .rollback

/-- A store in use has answered what was not failed, and only calls of operations that may be armed were. -/
structure Mirrors (may : Operation → Prop) (x : FaultyUsage) (y : Usage) : Prop where
  store : y.store = x.store
  history : y.history = x.history.filter (!·.isInjected)
  failing : ∀ op ∈ x.failing, may op
  blamed : ∀ o ∈ x.history, o.isInjected = true → Blamed may o

variable {may : Operation → Prop}

theorem Mirrors.blamed_concat (h : x.Mirrors may y) {o : Observation}
    (ho : o.isInjected = true → Blamed may o) :
    ∀ p ∈ x.history ++ [o], p.isInjected = true → Blamed may p := by
  intro p hp
  rcases List.mem_append.mp hp with hp | hp
  · exact h.blamed p hp
  · rw [List.mem_singleton] at hp
    rwa [hp]

theorem Mirrors.attempt (h : x.Mirrors may y) (now : Duration) (c : Call) (phase : Backend.Phase) :
    (x.attempt now c phase).Mirrors may (y.run (x.asked now c phase)) := by
  unfold FaultyUsage.attempt asked
  split
  · rename_i hadmits
    rcases Backend.attempt_cases (b := x.backend) rfl now c phase with
      ⟨hasks, he⟩ | ⟨hasks, hfails, he⟩ | ⟨hasks, wake, he⟩
    · have hstep : y.step (.call c) = y.call c := if_pos (h.store ▸ hadmits)
      have hbackend : x.backend.store = x.store := rfl
      rw [if_pos hasks, he, Backend.ask, hbackend]
      change FaultyUsage.Mirrors may _ (y.step (.call c))
      rw [hstep, Usage.call, h.store]
      cases hr : x.store.respond c with
      | replied r s =>
        have hkept := Store.isInjected_of_respond hr
        refine ⟨rfl, ?_, h.failing, h.blamed_concat ?_⟩
        · simp [h.history, hkept]
        · intro hinjected
          rw [hkept] at hinjected
          cases hinjected
      | waits s => exact { h with store := rfl }
    · rw [if_neg hasks, he]
      refine ⟨h.store, ?_, h.failing, h.blamed_concat ?_⟩
      · simp [h.history, Observation.isInjected_injected]
      · intro _
        exact ⟨c, _, rfl, h.failing _ hfails.1, hfails.2⟩
    · rw [if_neg hasks, he]
      exact { h with }
  · rename_i hadmits
    split
    · have hstep : y.step (.call c) = y := if_neg (h.store ▸ hadmits)
      change FaultyUsage.Mirrors may _ (y.step (.call c))
      rwa [hstep]
    · exact h

theorem Mirrors.step (h : x.Mirrors may y) {a : Handling} (ha : ∀ op, a = .failOn op → may op) :
    (x.step a).Mirrors may (y.run (x.passed a)) := by
  cases a with
  | call now c => exact h.attempt now c .fresh
  | resume now i =>
    simp only [FaultyUsage.step, passed]
    split
    · exact h
    · rename_i c phase _
      have hrest : Mirrors may { x with pending := x.pending.eraseIdx i } y := { h with }
      exact hrest.attempt now c phase
  | drop u =>
    change FaultyUsage.Mirrors may _ (y.step (.drop u))
    simp only [FaultyUsage.step, Usage.step, h.store]
    split
    · exact { h with store := rfl }
    · exact h
  | giveUp u =>
    change FaultyUsage.Mirrors may _ (y.step (.giveUp u))
    simp only [FaultyUsage.step, Usage.step, h.store]
    split
    · exact { h with store := rfl }
    · exact h
  | failOn op => exact { h with failing := List.forall_mem_cons.mpr ⟨ha op rfl, h.failing⟩ }
  | delayLocks delay => exact { h with }
  | heal => exact { h with failing := by simp [FaultyUsage.step] }

theorem Mirrors.run (h : x.Mirrors may y) {handlings : List Handling}
    (hmay : ∀ op, .failOn op ∈ handlings → may op) :
    (x.run handlings).Mirrors may (y.run (x.passedAll handlings)) := by
  induction handlings generalizing x y with
  | nil => exact h
  | cons a rest ih =>
    rw [passedAll, Usage.run_append]
    refine ih (h.step ?_) (fun op hop ↦ hmay op (List.mem_cons_of_mem a hop))
    rintro op rfl
    exact hmay op List.mem_cons_self

/-- A call of an armed operation fails and changes nothing, unless it ends a unit of work. Any other call
has the reply and the effect that it has on the store by itself. Over any run, the store by itself goes the
same way on what is let through, the replies are its replies and injected failures, and a failure is only
injected into a call of an operation that was armed and does not end a unit of work. -/
theorem transparent (s : Store) (failing : List Operation) (lockDelay : Option Duration) (c : Call)
    (handlings : List Handling) :
    let x : FaultyUsage := { store := s, failing, lockDelay }
    let y : Usage := { store := s }
    (c.operation ∈ failing → c.operation ≠ .commit → c.operation ≠ .rollback →
      x.backend.settle c = (some (.error (.failure c.operation .injected)), x.backend)) ∧
    (c.operation ∉ failing ∨ c.operation = .commit ∨ c.operation = .rollback →
      x.backend.settle c = ((Backend.settle { store := s } c).1,
        { x.backend with store := (Backend.settle { store := s } c).2.store })) ∧
    (y.run (x.passedAll handlings)).store = (x.run handlings).store ∧
    (y.run (x.passedAll handlings)).history = (x.run handlings).history.filter (!·.isInjected) ∧
    ∀ o ∈ (x.run handlings).history, o.isInjected = true →
      Blamed (fun op ↦ op ∈ failing ∨ .failOn op ∈ handlings) o := by
  intro x y
  have hmirrors : (x.run handlings).Mirrors (fun op ↦ op ∈ failing ∨ .failOn op ∈ handlings)
      (y.run (x.passedAll handlings)) :=
    Mirrors.run ⟨rfl, rfl, fun op ↦ .inl, by simp [x]⟩ (fun op ↦ .inr)
  refine ⟨?_, ?_, hmirrors.store, hmirrors.history, hmirrors.blamed⟩
  · intro harmed hcommit hrollback
    exact Backend.settle_of_fails rfl ⟨harmed, hcommit, hrollback⟩
  · intro hfree
    apply Backend.settle_of_not_fails rfl
    rintro ⟨harmed, hcommit, hrollback⟩
    rcases hfree with hfree | hfree | hfree
    · exact hfree harmed
    · exact hcommit hfree
    · exact hrollback hfree

def written : Account := .opened System.idA System.ten System.epoch

/-- A unit of work has written a row. -/
def writing : Store := { units := [(⟨0⟩, { rows := [written] })], opened := 1 }

theorem transparent_writing :
    Backend.settle ⟨writing, { failing := [.upsertAccount, .commit] }⟩ (.upsertAccount ⟨0⟩ written) =
      (some (.error (.failure .upsertAccount .injected)),
        ⟨writing, { failing := [.upsertAccount, .commit] }⟩) ∧
    (Backend.settle ⟨writing, { failing := [.upsertAccount, .commit] }⟩ (.commit ⟨0⟩)).1 = some (.ok ()) ∧
    (Backend.settle ⟨writing, { failing := [.upsertAccount, .commit] }⟩ (.commit ⟨0⟩)).2.store.rows =
      [written] := by
  obtain ⟨hfails, -⟩ :=
    transparent writing [.upsertAccount, .commit] none (.upsertAccount ⟨0⟩ written) []
  obtain ⟨-, hcommit, -⟩ := transparent writing [.upsertAccount, .commit] none (.commit ⟨0⟩) []
  have hcommit := hcommit (.inr (.inl rfl))
  refine ⟨hfails (by decide) (by decide) (by decide), ?_, ?_⟩
  · exact (congrArg Prod.fst hcommit).trans (by rfl)
  · exact (congrArg (·.2.store.rows) hcommit).trans (by rfl)

/-- A commit goes through although it is armed to fail. -/
theorem commit_not_failed : ¬∀ (s : Store) (failing : List Operation) (c : Call), c.operation ∈ failing →
    (Backend.settle ⟨s, { failing }⟩ c).1 = some (.error (.failure c.operation .injected)) := by
  intro h
  have hfailed := h writing [.commit] (.commit ⟨0⟩) (by decide)
  have hactual : (Backend.settle ⟨writing, { failing := [.commit] }⟩ (.commit ⟨0⟩)).1 = some (.ok ()) := rfl
  rw [hactual] at hfailed
  cases hfailed

end FaultyUsage

end Bookkeeping
