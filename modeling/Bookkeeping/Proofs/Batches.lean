import Bookkeeping.Proofs.Isolation
import Bookkeeping.Proofs.Payloads
import Bookkeeping.Proofs.SoloRuns
import Bookkeeping.Session
import Mathlib.Algebra.Group.Nat.Defs

/-! # Batches in use

Events are recorded to a batch, and the batch is placed in a store, in any order and any number of
times. The store, which may be any, accepts some of the placings and refuses others. What it has
accepted, followed by what is pending, is what was recorded: each event once, in its order and under
the number that follows the one before it.
-/
namespace Bookkeeping
open Bookkeeping.Time

namespace EntryBatch

inductive Handling where
  | record (e : Event)
  | place (u : UnitId)

def Handling.event? : Handling → Option Event
  | .record e => some e
  | .place _ => none

def recorded (handlings : List Handling) : List Event := handlings.filterMap Handling.event?

/-- What a store was asked by a placing and has replied, and what came of it. -/
structure Placing where
  unit : UnitId
  told : List Observation
  result : Except StoreError Nat

def Placing.accepted (p : Placing) : List Draft := p.told.flatMap (·.appended p.unit)

/-- A placing counts what the store has accepted, and fails if the store refuses. -/
def Placing.Counts (p : Placing) : Prop :=
  match p.result with
  | .ok count => count = p.accepted.length
  | .error _ => p.accepted = []

structure Handled (σ : Type) where
  batch : EntryBatch
  store : σ
  placings : List Placing := []

end EntryBatch

def witnessed {σ : Type} (reply : (c : Call) → StateM σ c.Reply) (c : Call) :
    StateM (σ × List Observation) c.Reply := fun (s, told) =>
  let (r, s) := reply c s
  (r, s, told ++ [.replied c r])

namespace EntryBatch.Handled

variable {σ : Type} (reply : (c : Call) → StateM σ c.Reply) (now : Instant)

def place (x : Handled σ) (u : UnitId) : Handled σ :=
  let ((result, batch), store, told) :=
    ((EntryBatch.place u).on x.batch).answer (witnessed reply) (pure now) (x.store, [])
  ⟨batch, store, x.placings ++ [⟨u, told, result⟩]⟩

def step (x : Handled σ) : Handling → Except Failure (Handled σ)
  | .record e => return { x with batch := ← (EntryBatch.record e).update x.batch }
  | .place u => return x.place reply now u

def run (x : Handled σ) (handlings : List Handling) : Except Failure (Handled σ) :=
  handlings.foldlM (step reply now) x

def written (x : Handled σ) : List Draft :=
  x.placings.flatMap Placing.accepted ++ x.batch.pending

theorem run_concat (x : Handled σ) (handlings : List Handling) (a : Handling) :
    x.run reply now (handlings ++ [a]) = x.run reply now handlings >>= (step reply now · a) := by
  simp [run]

/-- A placing does nothing if nothing is pending; else the store is asked once, and if it refuses the
batch stays as it is. -/
theorem place_cases (x : Handled σ) (u : UnitId) :
    (x.batch.pending = [] ∧
      x.place reply now u = { x with placings := x.placings ++ [⟨u, [], .ok 0⟩] }) ∨
    (∃ store, x.place reply now u = ⟨{ x.batch with pending := [] }, store, x.placings ++
      [⟨u, [.replied (.append u x.batch.pending) (.ok ())], .ok x.batch.pending.length⟩]⟩) ∨
    ∃ e store, x.place reply now u = ⟨x.batch, store, x.placings ++
      [⟨u, [.replied (.append u x.batch.pending) (.error e)], .error e⟩]⟩ := by
  by_cases hpending : x.batch.pending = []
  · left
    rw [place, EntryBatch.on_place_nil u hpending]
    exact ⟨hpending, rfl⟩
  · right
    rw [place, EntryBatch.on_place u hpending]
    simp only [Program.answer, witnessed, bind, StateT.bind]
    rcases reply (.append u x.batch.pending) x.store with ⟨r, store⟩
    cases r with
    | ok _ => exact .inl ⟨store, rfl⟩
    | error e => exact .inr ⟨e, store, rfl⟩

end EntryBatch.Handled

/-! ## What is written -/

namespace EntryBatch

theorem exists_record (b : EntryBatch) (e : Event) (h : b.sequence.value + 1 < 2 ^ 64) :
    ∃ next, next.value = b.sequence.value + 1 ∧ (record e).update b =
      .ok { b with sequence := next, pending := b.pending ++ [b.stamp e next] } := by
  have hnext : b.sequence.next? = some ⟨b.sequence.value + 1, h⟩ :=
    SequenceNumber.next?_eq_some_iff.mpr rfl
  exact ⟨_, rfl, by rw [update_record, hnext]⟩

/-- All events that were recorded to a batch since its beginning are written: each of them once, in
their order and without a gap in the numbers. -/
structure Accounts {σ : Type} (start : EntryBatch) (events : List Event) (x : Handled σ) : Prop where
  batch : x.batch = { start with sequence := x.batch.sequence, pending := x.batch.pending }
  decoded : x.written.map Draft.event = events.map .ok
  numbers : x.written.map (·.sequence.value) =
    List.range' (start.sequence.value + 1) events.length
  sequence : x.batch.sequence.value = start.sequence.value + events.length
  labels : ∀ d ∈ x.written, d.account = start.account ∧ d.transaction = start.transaction ∧
    d.version = start.version
  counts : ∀ p ∈ x.placings, p.Counts

namespace Accounts

variable {σ : Type} (reply : (c : Call) → StateM σ c.Reply) (now : Instant)
variable {start : EntryBatch} {events : List Event} {x : Handled σ}

theorem record (h : Accounts start events x) (e : Event)
    (hroom : start.sequence.value + events.length + 1 < 2 ^ 64) :
    ∃ y, x.step reply now (.record e) = .ok y ∧ Accounts start (events ++ [e]) y := by
  obtain ⟨next, hnext, hrecord⟩ := EntryBatch.exists_record x.batch e (by rw [h.sequence]; exact hroom)
  refine ⟨{ x with batch := _ }, by rw [Handled.step, hrecord]; rfl, ?_⟩
  have hwritten : Handled.written { x with batch := { x.batch with
      sequence := next, pending := x.batch.pending ++ [x.batch.stamp e next] } } =
      x.written ++ [x.batch.stamp e next] := by simp [Handled.written]
  have hstamp : (x.batch.stamp e next).event = .ok e := Draft.event_eq_ok rfl rfl
  have hlabels : (x.batch.stamp e next).account = start.account ∧
      (x.batch.stamp e next).transaction = start.transaction ∧
      (x.batch.stamp e next).version = start.version := by
    rw [h.batch]
    exact ⟨rfl, rfl, rfl⟩
  constructor
  · rw [h.batch]
  · simp [hwritten, h.decoded, hstamp]
  · have hvalue : (x.batch.stamp e next).sequence.value = start.sequence.value + 1 + events.length := by
      change next.value = _
      rw [hnext, h.sequence]
      omega
    simp [hwritten, h.numbers, hvalue, List.range'_concat, List.length_append]
  · simp only [hnext, h.sequence, List.length_append, List.length_singleton]
    omega
  · intro d hd
    rw [hwritten] at hd
    rcases List.mem_append.mp hd with hd | hd
    · exact h.labels d hd
    · rw [List.mem_singleton.mp hd]
      exact hlabels
  · exact h.counts

omit reply now in
theorem of_written (h : Accounts start events x) {y : Handled σ} {p : Placing}
    (hwritten : y.written = x.written) (hplacings : y.placings = x.placings ++ [p]) (hp : p.Counts)
    (hbatch : y.batch = { x.batch with pending := y.batch.pending }) : Accounts start events y := by
  have hsequence : y.batch.sequence = x.batch.sequence := by rw [hbatch]
  refine ⟨?_, hwritten ▸ h.decoded, hwritten ▸ h.numbers, hsequence ▸ h.sequence, hwritten ▸ h.labels, ?_⟩
  · rw [hbatch, h.batch]
  · intro q hq
    rw [hplacings] at hq
    rcases List.mem_append.mp hq with hq | hq
    · exact h.counts q hq
    · rw [List.mem_singleton.mp hq]
      exact hp

theorem place (h : Accounts start events x) (u : UnitId) :
    Accounts start events (x.place reply now u) := by
  rcases x.place_cases reply now u with ⟨hpending, he⟩ | ⟨store, he⟩ | ⟨e, store, he⟩ <;> rw [he]
  · exact h.of_written (p := ⟨u, [], .ok 0⟩) (by simp [Handled.written, Placing.accepted]) rfl rfl rfl
  · refine h.of_written (p := ⟨u, [.replied (.append u x.batch.pending) (.ok ())], .ok _⟩) ?_ rfl ?_ rfl
    · simp [Handled.written, Placing.accepted, Observation.appended]
    · simp [Placing.Counts, Placing.accepted, Observation.appended]
  · refine h.of_written (p := ⟨u, [.replied (.append u x.batch.pending) (.error e)], .error e⟩)
      ?_ rfl ?_ rfl
    · simp [Handled.written, Placing.accepted, Observation.appended]
    · simp [Placing.Counts, Placing.accepted, Observation.appended]

theorem run (h : Accounts start [] x) (handlings : List Handling)
    (hroom : start.sequence.value + (recorded handlings).length < 2 ^ 64) :
    ∃ y, x.run reply now handlings = .ok y ∧ Accounts start (recorded handlings) y := by
  induction handlings using List.reverseRecOn with
  | nil => exact ⟨x, rfl, h⟩
  | append_singleton handlings a ih =>
    have hrecorded : recorded (handlings ++ [a]) = recorded handlings ++ a.event?.toList := by
      cases a <;> simp [recorded, Handling.event?]
    rw [hrecorded, List.length_append] at hroom
    obtain ⟨y, hrun, hy⟩ := ih (by omega)
    rw [Handled.run_concat, hrun, hrecorded]
    cases a with
    | record e =>
      rw [Handling.event?, Option.toList_some, List.length_singleton] at hroom
      exact hy.record reply now e (by omega)
    | place u => exact ⟨_, rfl, by simpa [Handling.event?] using hy.place reply now u⟩

end Accounts
end EntryBatch

/-! ## Refusals of the store in memory -/

theorem Store.Told.refused_append {s s' : Store} {u : UnitId} {drafts : List Draft} {e : StoreError}
    (h : s.Told (.append u drafts) (.error e) s') : ∃ key, s' = { s with lastKey := key } := by
  cases h with
  | answered h =>
    rw [Store.respond] at h
    rcases s.append_cases u drafts with ⟨staged, key, -, he⟩ | ⟨key, he⟩ <;> rw [he] at h
    · cases h
    · cases h
      exact ⟨key, rfl⟩
  | refused => exact ⟨s.lastKey, rfl⟩

theorem Session.place_storeFailed {s s' : Session} {name : String} {b : EntryBatch} {u : UnitId}
    {e : StoreError} (h : s.place name b u = (.storeFailed e, s')) :
    s'.batches = setName name b s.batches ∧ ∃ key, s'.store = { s.store with lastKey := key } := by
  by_cases hpending : b.pending = []
  · rw [place, EntryBatch.on_place_nil u hpending] at h
    cases h
  · simp only [place, runProgram, Program.finish?, EntryBatch.on_place u hpending,
      Program.advance] at h
    cases hattempt : s.world.backend.attempt ⟨0⟩ (.append u b.pending) .fresh with
    | suspended phase backend =>
      simp only [hattempt] at h
      cases h
    | replied r backend =>
      have htold := Backend.attempt_replied hattempt
      rw [hattempt] at h
      cases r with
      | ok _ => cases h
      | error e' =>
        cases h
        exact ⟨rfl, htold.refused_append⟩

namespace EntryBatch

/-- As long as the numbers suffice, recording never fails, whatever the store replies to the placings.
What the store has accepted, followed by what is pending, is what was recorded. A placing is accepted as a
whole and counted, or refused as a whole; then the batch stays as it is, and so does the unit of work if
the store is the one in memory. -/
theorem written_as_recorded {σ : Type} (reply : (c : Call) → StateM σ c.Reply) (now : Instant) (s : σ)
    (account : AccountId) (t : TransactionId) (version : SchemaVersion) (n : SequenceNumber)
    (handlings : List Handling) (hroom : n.value + (recorded handlings).length ≤ 2 ^ 64 - 1) :
    ∃ x : Handled σ, Handled.run reply now ⟨startingAt account t version n, s, []⟩ handlings = .ok x ∧
      x.written.map Draft.event = (recorded handlings).map .ok ∧
      x.written.map (·.sequence.value) = List.range' (n.value + 1) (recorded handlings).length ∧
      (∀ d ∈ x.written, d.account = account ∧ d.transaction = t ∧ d.version = version) ∧
      x.batch.sequence.value = n.value + (recorded handlings).length ∧
      (∀ p ∈ x.placings, (∀ count, p.result = .ok count → count = p.accepted.length) ∧
        ∀ e, p.result = .error e → p.accepted = []) ∧
      (∀ u, ∃ p, (x.place reply now u).placings = x.placings ++ [p] ∧
        ((p.result = .ok x.batch.pending.length ∧ p.accepted = x.batch.pending ∧
            (x.place reply now u).batch = { x.batch with pending := [] }) ∨
          ∃ e, p.result = .error e ∧ (x.place reply now u).batch = x.batch)) ∧
      ∀ (session session' : Session) name u e, session.place name x.batch u = (.storeFailed e, session') →
        session'.batches = setName name x.batch session.batches ∧
          ∃ key, session'.store = { session.store with lastKey := key } := by
  have hstart : Accounts (startingAt account t version n) []
      (⟨startingAt account t version n, s, []⟩ : Handled σ) :=
    ⟨rfl, rfl, rfl, rfl, by simp [Handled.written, startingAt], by simp⟩
  obtain ⟨x, hrun, hx⟩ := hstart.run reply now handlings (by simp only [startingAt]; omega)
  refine ⟨x, hrun, hx.decoded, hx.numbers, hx.labels, hx.sequence, ?_, ?_, ?_⟩
  · intro p hp
    have hcounts := hx.counts p hp
    constructor <;> intro r hr <;> rwa [Placing.Counts, hr] at hcounts
  · intro u
    rcases x.place_cases reply now u with ⟨hpending, he⟩ | ⟨store, he⟩ | ⟨e, store, he⟩ <;> rw [he]
    · exact ⟨_, rfl, .inl ⟨by rw [hpending]; rfl, by rw [hpending]; rfl, by rw [← hpending]⟩⟩
    · exact ⟨_, rfl, .inl ⟨rfl, by simp [Placing.accepted, Observation.appended], rfl⟩⟩
    · exact ⟨_, rfl, .inr ⟨e, rfl, rfl⟩⟩
  · intro session session' name u e h
    exact Session.place_storeFailed h

/-- A store that follows a script: it accepts what is appended, or refuses it. -/
def scripted (c : Call) : StateM (List Bool) c.Reply := fun script =>
  match c, script with
  | .append .., true :: rest => (.ok (), rest)
  | c, script => (.error (.conflict c.operation), script.tail)

def retried : List Handling :=
  [.record (.opened System.ten), .place ⟨0⟩, .record (.deposited "SYSTEM" System.ten), .place ⟨1⟩,
    .record (.debited System.idB System.tenth)]

/-- The last number that there is goes to the last event. -/
theorem written_as_recorded_retried :
    let n : SequenceNumber := ⟨2 ^ 64 - 4, by decide⟩
    n.value + (recorded retried).length ≤ 2 ^ 64 - 1 ∧
    ∃ x, Handled.run scripted System.epoch
        ⟨startingAt System.idA System.txA .standard n, [false, true], []⟩ retried = .ok x ∧
      x.written.map Draft.event = (recorded retried).map .ok ∧
      x.written.map (·.sequence.value) = [2 ^ 64 - 3, 2 ^ 64 - 2, 2 ^ 64 - 1] ∧
      x.batch.sequence.value = 2 ^ 64 - 1 := by
  intro n
  have hroom : n.value + (recorded retried).length ≤ 2 ^ 64 - 1 := by decide
  obtain ⟨x, hrun, hdecoded, hnumbers, -, hsequence, -⟩ := written_as_recorded scripted System.epoch
    [false, true] System.idA System.txA .standard n retried hroom
  exact ⟨hroom, x, hrun, hdecoded, hnumbers, hsequence⟩

end EntryBatch
end Bookkeeping
