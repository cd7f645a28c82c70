import Bookkeeping.Proofs.Interleaving
import Bookkeeping.Workflow.Transfer

/-! # Contracts of programs

A contract follows a program from state to state by what the program is told. In each state it says
which steps the program may make and what it may be told in return. A program obeys a contract if it
keeps to it along every run and its result fits the state at the end.
-/
namespace Bookkeeping
open Bookkeeping.Time

/-- What has to hold before a step is given by what has to hold after it. -/
structure Contract (σ : Type) where
  tell : σ → Observation → σ
  onCall : σ → (c : Call) → (c.Reply → Prop) → Prop
  onClock : σ → (Instant → Prop) → Prop
  fails : σ → Failure → Prop
  onCall_mono : ∀ {s : σ} {c : Call} {P Q : c.Reply → Prop}, (∀ r, P r → Q r) →
    onCall s c P → onCall s c Q
  onClock_mono : ∀ {s : σ} {P Q : Instant → Prop}, (∀ t, P t → Q t) → onClock s P → onClock s Q

namespace Contract

variable {σ α : Type}

def Fits (C : Contract σ) (Q : σ → α → Prop) (s : σ) : Except Failure α → Prop
  | .ok a => Q s a
  | .error why => C.fails s why

def Lenient (C : Contract σ) (s : σ) : Prop := ∀ why, C.fails s why

/-- A program may be told anything at any of its steps. -/
structure Open (C : Contract σ) : Prop where
  onCall : ∀ {s : σ} {c : Call} {P : c.Reply → Prop}, C.onCall s c P → ∀ r, P r
  onClock : ∀ {s : σ} {P : Instant → Prop}, C.onClock s P → ∀ t, P t

end Contract

def Program.Obeys {σ α : Type} (C : Contract σ) (Q : σ → α → Prop) : Program α → σ → Prop
  | .done a, s => Q s a
  | .call c next, s => C.onCall s c fun r => (next r).Obeys C Q (C.tell s (.replied c r))
  | .clock next, s => C.onClock s fun t => (next t).Obeys C Q (C.tell s (.read t))

namespace Program

variable {σ α β : Type} {C : Contract σ} {Q Q' : σ → α → Prop} {s : σ}

theorem Obeys.mono {p : Program α} (hp : p.Obeys C Q s) (hQ : ∀ s a, Q s a → Q' s a) :
    p.Obeys C Q' s := by
  induction p generalizing s with
  | done a => exact hQ s a hp
  | call c next ih => exact C.onCall_mono (fun r hr => ih r hr) hp
  | clock next ih => exact C.onClock_mono (fun t ht => ih t ht) hp

theorem obeys_bind {p : Program α} {f : α → Program β} {Q : σ → β → Prop} :
    (p >>= f).Obeys C Q s ↔ p.Obeys C (fun s a => (f a).Obeys C Q s) s := by
  induction p generalizing s with
  | done a => rfl
  | call c next ih => simp only [call_bind, Obeys, ih]
  | clock next ih => simp only [clock_bind, Obeys, ih]

theorem obeys_ask {c : Call} {Q : σ → c.Reply → Prop} :
    (ask c).Obeys C Q s ↔ C.onCall s c fun r => Q (C.tell s (.replied c r)) r := Iff.rfl

end Program

namespace Workflow

theorem program_bind {α β : Type} (w : Workflow α) (f : α → Workflow β) :
    (w >>= f).program = w.program >>= fun
      | .ok a => (f a).program
      | .error why => Program.done (.error why) := by
  simp only [program, ExceptT.run_bind]
  congr 1
  funext r
  cases r <;> rfl

theorem program_perform {α : Type} (p : Program α) :
    (perform p).program = p >>= fun a => Program.done (.ok a) := by
  simp only [program, perform, ExceptT.run_lift, map_eq_pure_bind]
  rfl

variable {σ α β : Type} {C : Contract σ} {Q Q' : σ → α → Prop} {s : σ}

def Obeys (C : Contract σ) (Q : σ → α → Prop) (w : Workflow α) (s : σ) : Prop :=
  w.program.Obeys C (C.Fits Q) s

theorem Obeys.mono {w : Workflow α} (hw : w.Obeys C Q s) (hQ : ∀ s a, Q s a → Q' s a) :
    w.Obeys C Q' s := by
  apply Program.Obeys.mono hw
  intro s r hr
  cases r with
  | ok a => exact hQ s a hr
  | error why => exact hr

theorem obeys_pure {a : α} : Obeys C Q (pure a) s ↔ Q s a := Iff.rfl

theorem obeys_bind {w : Workflow α} {f : α → Workflow β} {Q : σ → β → Prop} :
    Obeys C Q (w >>= f) s ↔ w.Obeys C (fun s a => (f a).Obeys C Q s) s := by
  rw [Obeys, program_bind, Program.obeys_bind]
  constructor <;> intro hw <;> apply Program.Obeys.mono hw <;> intro s r hr <;> cases r <;> exact hr

theorem obeys_bind_bind {γ : Type} {w : Workflow α} {g : α → Workflow β} {f : β → Workflow γ}
    {Q : σ → γ → Prop} :
    Obeys C Q (w >>= fun a => g a >>= f) s ↔ Obeys C (fun s b => (f b).Obeys C Q s) (w >>= g) s := by
  rw [← bind_assoc, obeys_bind]

theorem obeys_map {w : Workflow α} {f : α → β} {Q : σ → β → Prop} :
    Obeys C Q (f <$> w) s ↔ w.Obeys C (fun s a => Q s (f a)) s := by
  rw [map_eq_pure_bind, obeys_bind]
  rfl

theorem obeys_perform {p : Program α} : Obeys C Q (perform p) s ↔ p.Obeys C Q s := by
  rw [Obeys, program_perform, Program.obeys_bind]
  rfl

theorem obeys_ask {c : Call} {Q : σ → c.Reply → Prop} :
    Obeys C Q (ask c) s ↔ C.onCall s c fun r => Q (C.tell s (.replied c r)) r := by
  rw [ask, obeys_perform, Program.obeys_ask]

theorem obeys_now {Q : σ → Instant → Prop} :
    Obeys C Q now s ↔ C.onClock s fun t => Q (C.tell s (.read t)) t := by
  rw [now, obeys_perform]
  rfl

theorem obeys_reject {e : LedgerError} : Obeys C Q (reject e) s ↔ C.fails s (.rejected e) := Iff.rfl

theorem obeys_ofResult {r : Except Failure α} : Obeys C Q (ofResult r) s ↔ C.Fits Q s r := Iff.rfl

/-! ## Steps that may fail in any way -/

theorem obeys_result (h : C.Lenient s) {r : Except Failure α} (hQ : ∀ a, r = .ok a → Q s a) :
    Obeys C Q (ofResult r) s := by
  cases r with
  | ok a => exact hQ a rfl
  | error why => exact h why

theorem obeys_checkFresh {settings : Settings} {request : Request} {Q : σ → Instant → Prop}
    (h : ∀ t, C.Lenient (C.tell s (.read t)))
    (hQ : C.onClock s fun t => Fresh settings request t → Q (C.tell s (.read t)) t) :
    Obeys C Q (checkFresh settings request) s := by
  rw [checkFresh, obeys_bind, obeys_now]
  apply C.onClock_mono _ hQ
  intro t ht
  split
  · exact ht ‹_›
  · exact h t _

theorem obeys_checkAbsent {id : AccountId} {r : Except StoreError Account} {Q : σ → Unit → Prop}
    (h : C.Lenient s) (hQ : Q s ()) : Obeys C Q (checkAbsent id r) s := by
  unfold checkAbsent
  split
  · exact h _
  · split
    · exact hQ
    · exact h _

theorem obeys_checkUnused {t : TransactionId} {step : Step} {r : Except StoreError (List Entry)}
    {Q : σ → Unit → Prop} (h : C.Lenient s) (hQ : Q s ()) : Obeys C Q (checkUnused t step r) s := by
  unfold checkUnused
  split
  · exact hQ
  · exact h _
  · split
    · exact hQ
    · exact h _

theorem obeys_requireRow {missing : LedgerError} {row : Option Account} {Q : σ → Account → Prop}
    (h : C.Lenient s) (hQ : ∀ a, row = some a → Q s a) : Obeys C Q (requireRow missing row) s := by
  cases row with
  | none => exact h _
  | some a => exact hQ a rfl

/-- Lets results pass and rejects errors. -/
structure Passes (handle : Except StoreError α → Workflow α) : Prop where
  ok : ∀ a, handle (.ok a) = pure a
  error : ∀ e, ∃ why, handle (.error e) = reject why

theorem passes_orInternal (step : Step) : Passes (orInternal (α := α) step) :=
  ⟨fun _ => rfl, fun e => ⟨.internal step e, rfl⟩⟩

theorem passes_orExists (account : AccountId) (step : Step) :
    Passes (orExists (α := α) account step) := by
  refine ⟨fun _ => rfl, fun e => ?_⟩
  by_cases he : e.isConflict
  · exact ⟨.alreadyExists account, if_pos he⟩
  · exact ⟨.internal step e, if_neg he⟩

namespace Passes

variable {handle : Except StoreError α → Workflow α}

theorem obeys_error (hp : Passes handle) (h : C.Lenient s) (e : StoreError) :
    Obeys C Q (handle (.error e)) s := by
  obtain ⟨why, he⟩ := hp.error e
  rw [he]
  exact h _

theorem obeys (hp : Passes handle) {r : Except StoreError α} (h : C.Lenient s)
    (hQ : ∀ a, r = .ok a → Q s a) : Obeys C Q (handle r) s := by
  cases r with
  | ok a =>
    rw [hp.ok]
    exact hQ a rfl
  | error e => exact hp.obeys_error h e

end Passes

/-! ## Batches -/

variable {u : UnitId} {id : AccountId} {t : TransactionId} {version : SchemaVersion}

theorem obeys_load {handle : Except StoreError EntryBatch → Workflow α} :
    Obeys C Q (perform (EntryBatch.load id t version) >>= handle) s ↔
      C.onCall s (.findLast id) fun r => Obeys C Q
        (handle ((EntryBatch.lastSequence r).map (.startingAt id t version)))
        (C.tell s (.replied (.findLast id) r)) := by
  rw [obeys_bind, obeys_perform]
  rfl

theorem obeys_loadIn {handle : Except StoreError EntryBatch → Workflow α} :
    Obeys C Q (perform (EntryBatch.loadIn u id t version) >>= handle) s ↔
      C.onCall s (.findLastIn u id) fun r => Obeys C Q
        (handle ((EntryBatch.lastSequence r).map (.startingAt id t version)))
        (C.tell s (.replied (.findLastIn u id) r)) := by
  rw [obeys_bind, obeys_perform]
  rfl

theorem obeys_place {b : EntryBatch} (hb : b.pending ≠ [])
    {handle : Except StoreError Nat → Workflow α} :
    Obeys C Q (perform ((EntryBatch.place u).on b) >>= fun x => handle x.1) s ↔
      C.onCall s (.append u b.pending) fun r => Obeys C Q
        (handle (r.map fun _ => b.pending.length)) (C.tell s (.replied (.append u b.pending) r)) := by
  rw [obeys_bind, obeys_perform, EntryBatch.on_place u hb]
  constructor <;> apply C.onCall_mono <;> intro r hr <;> cases r <;> exact hr

end Workflow

end Bookkeeping
