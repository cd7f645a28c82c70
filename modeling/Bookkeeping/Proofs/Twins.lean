import Bookkeeping.Proofs.Resemblance

/-! # Programs that run alike

Two programs are twins if they make calls that differ only in names, whenever what they have been told
differs only in keys and names, and end alike. The program of a command is its own twin: it looks at
no key, and at a name only to hand it back to the store.
-/
namespace Bookkeeping
open Bookkeeping.Time

/-! ## Twins among programs -/

/-- Programs that do the same with replies that are echoes of each other. -/
inductive Program.Twins {α β : Type} (Q : Names → α → β → Prop) :
    Names → Program α → Program β → Prop
  | done {o : Names} {a : α} {b : β} (h : Q o a b) : Twins Q o (.done a) (.done b)
  | call {o : Names} {c c' : Call} {next : c.Reply → Program α} {next' : c'.Reply → Program β}
      (pairs : Call.Pairs o c c')
      (later : ∀ r r' o', Call.Echoes o c c' r r' o' → Twins Q o' (next r) (next' r')) :
      Twins Q o (.call c next) (.call c' next')
  | clock {o : Names} {next : Instant → Program α} {next' : Instant → Program β}
      (later : ∀ t, Twins Q o (next t) (next' t)) : Twins Q o (.clock next) (.clock next')

def Agree {α : Type} (o : Names) : Names → α → α → Prop := fun o' a b => o' = o ∧ a = b

namespace Program.Twins

variable {α β γ δ : Type} {Q Q' : Names → α → β → Prop} {R : Names → γ → δ → Prop} {o o' : Names}
  {p : Program α} {q : Program β}

theorem mono (h : p.Twins Q o q) (hQ : ∀ o a b, Q o a b → Q' o a b) : p.Twins Q' o q := by
  induction h with
  | done h => exact .done (hQ _ _ _ h)
  | call pairs _ ih => exact .call pairs ih
  | clock _ ih => exact .clock ih

theorem bind {f : α → Program γ} {g : β → Program δ} (h : p.Twins Q o q)
    (hf : ∀ o a b, Q o a b → (f a).Twins R o (g b)) : (p >>= f).Twins R o (q >>= g) := by
  induction h with
  | done h => exact hf _ _ _ h
  | call pairs _ ih => exact .call pairs ih
  | clock _ ih => exact .clock ih

theorem ask {c c' : Call} {f : c.Reply → Program γ} {g : c'.Reply → Program δ}
    (pairs : Call.Pairs o c c')
    (hf : ∀ r r' o', Call.Echoes o c c' r r' o' → (f r).Twins R o' (g r')) :
    (Program.ask c >>= f).Twins R o (Program.ask c' >>= g) :=
  .call pairs hf

end Program.Twins

/-! ## Twins among workflows -/

namespace Workflow

variable {α β γ δ : Type}

/-- Values that are related, or the same failure. -/
inductive Likely (Q : Names → α → β → Prop) : Names → Except Failure α → Except Failure β → Prop
  | ok {o : Names} {a : α} {b : β} (h : Q o a b) : Likely Q o (.ok a) (.ok b)
  | error (o : Names) (why : Failure) : Likely Q o (.error why) (.error why)

/-- As for programs; workflows that end early fail alike. -/
def Twins (Q : Names → α → β → Prop) (o : Names) (w : Workflow α) (v : Workflow β) : Prop :=
  w.program.Twins (Likely Q) o v.program

variable {Q : Names → α → β → Prop} {R : Names → γ → δ → Prop} {o o' : Names}

theorem twins_pure {a : α} {b : β} (h : Q o a b) : Twins Q o (pure a) (pure b) := .done (.ok h)

theorem twins_reject (e : LedgerError) : Twins Q o (reject e) (reject e) := .done (.error o _)

theorem twins_reject_bind (e : LedgerError) (f : α → Workflow γ) (g : β → Workflow δ) :
    (reject e >>= f).Twins R o (reject e >>= g) := .done (.error o _)

theorem Twins.bind {w : Workflow α} {v : Workflow β} {f : α → Workflow γ} {g : β → Workflow δ}
    (h : w.Twins Q o v) (hf : ∀ o a b, Q o a b → (f a).Twins R o (g b)) :
    (w >>= f).Twins R o (v >>= g) := by
  rw [Twins, program_bind, program_bind]
  refine Program.Twins.bind h fun o r r' hr => ?_
  cases hr with
  | ok hq => exact hf o _ _ hq
  | error why => exact .done (.error o why)

theorem Twins.then {w v : Workflow α} {f : α → Workflow γ} {g : α → Workflow δ}
    (h : w.Twins (Agree o') o v) (hf : ∀ a, (f a).Twins R o' (g a)) :
    (w >>= f).Twins R o (v >>= g) := by
  refine h.bind fun o a b hab => ?_
  obtain ⟨rfl, rfl⟩ := hab
  exact hf a

theorem Twins.then_then {w v : Workflow α} {f g : α → Workflow β} {k : β → Workflow γ}
    {l : β → Workflow δ} (h : (w >>= f).Twins (Agree o') o (v >>= g))
    (hk : ∀ b, (k b).Twins R o' (l b)) :
    (w >>= fun a => f a >>= k).Twins R o (v >>= fun a => g a >>= l) := by
  rw [← bind_assoc, ← bind_assoc]
  exact h.then hk

theorem Twins.map {w v : Workflow α} (f : α → γ) (h : w.Twins (Agree o') o v) :
    (f <$> w).Twins (Agree o') o (f <$> v) := by
  rw [map_eq_pure_bind, map_eq_pure_bind]
  exact h.then fun a => twins_pure ⟨rfl, rfl⟩

theorem twins_perform {p q : Program α} (h : p.Twins (Agree o') o q) :
    (perform p).Twins (Agree o') o (perform q) := by
  rw [Twins, program_perform, program_perform]
  exact h.bind fun o a b hab => .done (.ok hab)

theorem twins_ask {c c' : Call} {f : c.Reply → Workflow γ} {g : c'.Reply → Workflow δ}
    (pairs : Call.Pairs o c c')
    (hf : ∀ r r' o', Call.Echoes o c c' r r' o' → (f r).Twins R o' (g r')) :
    (ask c >>= f).Twins R o (ask c' >>= g) := by
  have hask (c : Call) : (ask c).program = .call c fun r => .done (.ok r) := by
    rw [ask, program_perform]
    rfl
  rw [Twins, program_bind, program_bind, hask, hask]
  exact .call pairs fun r r' o' he => hf r r' o' he

theorem twins_now (o : Names) : Twins (Agree o) o now now := by
  refine twins_perform (.clock fun t => .done ⟨rfl, rfl⟩)

/-- A workflow that neither calls nor looks at the clock. -/
def Settled (w : Workflow α) : Prop := ∃ r, w.program = .done r

theorem Settled.twins {w : Workflow α} (h : w.Settled) (o : Names) : w.Twins (Agree o) o w := by
  obtain ⟨r, hr⟩ := h
  rw [Twins, hr]
  cases r with
  | ok a => exact .done (.ok ⟨rfl, rfl⟩)
  | error why => exact .done (.error o why)

theorem settled_pure (a : α) : Settled (pure a) := ⟨_, rfl⟩

theorem settled_reject (e : LedgerError) : Settled (reject e : Workflow α) := ⟨_, rfl⟩

theorem settled_ofResult (r : Except Failure α) : Settled (ofResult r) := ⟨r, rfl⟩

/-! ### What comes of replies -/

theorem settled_orInternal (step : Step) (r : Except StoreError α) :
    Settled (orInternal step r) := by
  cases r with
  | ok a => exact settled_pure a
  | error e => exact settled_reject _

theorem settled_orExists (account : AccountId) (step : Step) (r : Except StoreError α) :
    Settled (orExists account step r) := by
  cases r with
  | ok a => exact settled_pure a
  | error e =>
    rw [orExists]
    split <;> exact settled_reject _

theorem settled_checkAbsent (id : AccountId) (r : Except StoreError Account) :
    Settled (checkAbsent id r) := by
  cases r with
  | ok a => exact settled_reject _
  | error e =>
    rw [checkAbsent]
    split
    · exact settled_pure ()
    · exact settled_reject _

theorem settled_lockedRow (r : Except StoreError Account) : Settled (lockedRow r) := by
  cases r with
  | ok a => exact settled_pure _
  | error e =>
    rw [lockedRow]
    split
    · exact settled_pure _
    · exact settled_reject _

theorem settled_requireRow (missing : LedgerError) (row : Option Account) :
    Settled (requireRow missing row) := by
  cases row with
  | some a => exact settled_pure a
  | none => exact settled_reject missing

/-- The check of a transaction asks only whether there are entries. -/
theorem twins_checkUnused {r r' : Except StoreError (List Entry)}
    (h : r.map (·.isEmpty) = r'.map (·.isEmpty)) (t : TransactionId) (step : Step) (o : Names) :
    (checkUnused t step r).Twins (Agree o) o (checkUnused t step r') := by
  rcases r with e | _ | ⟨x, es⟩ <;> rcases r' with e' | _ | ⟨x', es'⟩ <;> cases h
  · rw [checkUnused]
    split
    · exact twins_pure ⟨rfl, rfl⟩
    · exact twins_reject _
  · exact twins_pure ⟨rfl, rfl⟩
  · exact twins_reject _

theorem twins_checkFresh (settings : Settings) (request : Request) (o : Names) :
    (checkFresh settings request).Twins (Agree o) o (checkFresh settings request) := by
  refine (twins_now o).then fun t => ?_
  split
  · exact twins_pure ⟨rfl, rfl⟩
  · exact twins_reject _

theorem twins_load (id : AccountId) (t : TransactionId) (version : SchemaVersion) :
    (EntryBatch.load id t version).Twins (Agree none) none (EntryBatch.load id t version) := by
  refine .ask (.findLast id) fun r r' o' he => ?_
  cases he with
  | findLast _ same => exact .done ⟨rfl, by rw [same]⟩

/-! ### Steps in the open unit of work -/

variable (u u' : UnitId)

theorem twins_loadIn (id : AccountId) (t : TransactionId) (version : SchemaVersion) :
    (EntryBatch.loadIn u id t version).Twins (Agree (some (u, u'))) (some (u, u'))
      (EntryBatch.loadIn u' id t version) := by
  refine .ask (.findLastIn u u' id) fun r r' o' he => ?_
  cases he with
  | findLastIn _ _ _ same => exact .done ⟨rfl, by rw [same]⟩

theorem twins_place (batch : EntryBatch) :
    ((EntryBatch.place u).on batch).Twins (Agree (some (u, u'))) (some (u, u'))
      ((EntryBatch.place u').on batch) := by
  by_cases hb : batch.pending = []
  · rw [EntryBatch.on_place_nil u hb, EntryBatch.on_place_nil u' hb]
    exact .done ⟨rfl, rfl⟩
  · rw [EntryBatch.on_place u hb, EntryBatch.on_place u' hb]
    refine .ask (.append u u' batch.pending) fun r r' o' he => ?_
    cases he with
    | append _ _ _ r => cases r <;> exact .done ⟨rfl, rfl⟩

theorem twins_lockAccount (id : AccountId) {f g : Option Account → Workflow γ}
    {R : Names → γ → γ → Prop} (hf : ∀ row, (f row).Twins R (some (u, u')) (g row)) :
    Twins R (some (u, u')) (do f (← lockedRow (← ask (.lockAccount u id))))
      (do g (← lockedRow (← ask (.lockAccount u' id)))) := by
  refine twins_ask (.lockAccount u u' id) fun r r' o' he => ?_
  cases he with
  | lockAccount => exact ((settled_lockedRow r).twins _).then hf

theorem twins_lockPair (source destination : AccountId) :
    (lockPair u source destination).Twins (Agree (some (u, u'))) (some (u, u'))
      (lockPair u' source destination) := by
  rw [lockPair, lockPair]
  split <;> exact twins_lockAccount u u' _ fun _ => twins_lockAccount u u' _ fun _ =>
    twins_pure ⟨rfl, rfl⟩

theorem twins_upsert {handle : Except StoreError Unit → Workflow Unit}
    (h : ∀ r, (handle r).Settled) (a : Account) :
    Twins (Agree (some (u, u'))) (some (u, u')) (do handle (← ask (.upsertAccount u a)))
      (do handle (← ask (.upsertAccount u' a))) := by
  refine twins_ask (.upsertAccount u u' a) fun r r' o' he => ?_
  cases he with
  | upsertAccount => exact (h r).twins _

theorem twins_commit {handle : Except StoreError Unit → Workflow Unit}
    (h : ∀ r, (handle r).Settled) :
    Twins (Agree none) (some (u, u')) (do handle (← ask (.commit u)))
      (do handle (← ask (.commit u'))) := by
  refine twins_ask (.commit u u') fun r r' o' he => ?_
  cases he with
  | commit => exact (h r).twins _

variable {u u'}

theorem twins_openUnit {f g : UnitId → Workflow γ} {R : Names → γ → γ → Prop} (step : Step)
    (hf : ∀ u u', (f u).Twins R (some (u, u')) (g u')) :
    Twins R none (do f (← orInternal step (← ask .openUnit)))
      (do g (← orInternal step (← ask .openUnit))) := by
  refine twins_ask .openUnit fun r r' o' he => ?_
  cases he with
  | opened u u' => exact hf u u'
  | notOpened e => exact .done (.error none _)

/-! ## The workflows -/

theorem twins_writeOpening (batch : EntryBatch) (account : Account) :
    (writeOpening batch account).Twins (Agree none) none (writeOpening batch account) := by
  refine twins_openUnit .openingUnit fun u u' => ?_
  refine (twins_perform (twins_place u u' batch)).then fun r => ?_
  refine ((settled_orExists account.id .placingOpening r.1).twins _).then fun _ => ?_
  refine (twins_upsert u u' (settled_orExists account.id .insertingAccount) account).then_then
    fun _ => ?_
  exact twins_commit u u' (settled_orExists account.id .committingCreation)

theorem twins_create (settings : Settings) (request : Request) (id : AccountId)
    (initial : Amount) :
    (create settings request id initial).Twins (Agree none) none
      (create settings request id initial) := by
  refine (twins_checkFresh settings request none).then fun now => ?_
  refine twins_ask (.findAccount id) fun r r' o' he => ?_
  cases he
  refine ((settled_checkAbsent id r).twins none).then fun _ => ?_
  refine twins_ask (.findByTransaction request.transaction) fun r r' o' he => ?_
  cases he with | findByTransaction _ same => ?_
  refine (twins_checkUnused same _ _ none).then fun _ => ?_
  refine (twins_perform (twins_load id request.transaction settings.version)).then fun r => ?_
  refine ((settled_orInternal .loadingSequence r).twins none).then fun batch => ?_
  split
  · exact twins_reject_bind _ _ _
  · refine ((settled_ofResult ((recordOpening initial).update batch)).twins none).then fun batch => ?_
    exact (twins_writeOpening batch _).then fun _ => twins_pure ⟨rfl, rfl⟩

theorem twins_transferBatches (u u' : UnitId) (settings : Settings) (request : Request)
    (source destination : AccountId) (amount : Amount) :
    (transferBatches settings request u source destination amount).Twins (Agree (some (u, u')))
      (some (u, u')) (transferBatches settings request u' source destination amount) := by
  refine (twins_perform (twins_loadIn u u' source request.transaction _)).then fun r => ?_
  refine ((settled_orInternal .loadingSource r).twins _).then fun debits => ?_
  refine (twins_perform (twins_loadIn u u' destination request.transaction _)).then fun r => ?_
  refine ((settled_orInternal .loadingDestination r).twins _).then fun credits => ?_
  have hrecord (b : EntryBatch) (e : Event) := settled_ofResult ((EntryBatch.record e).update b)
  refine ((hrecord debits _).twins _).then fun _ => ?_
  refine ((hrecord credits _).twins _).then fun _ => ?_
  exact twins_pure ⟨rfl, rfl⟩

theorem twins_writeTransfer (u u' : UnitId) (debits credits : EntryBatch)
    (source destination : Account) :
    (writeTransfer u debits credits source destination).Twins (Agree none) (some (u, u'))
      (writeTransfer u' debits credits source destination) := by
  refine (twins_perform (twins_place u u' debits)).then fun r => ?_
  refine ((settled_orInternal .placingDebit r.1).twins _).then fun _ => ?_
  refine (twins_perform (twins_place u u' credits)).then fun r => ?_
  refine ((settled_orInternal .placingCredit r.1).twins _).then fun _ => ?_
  refine (twins_upsert u u' (settled_orInternal .updatingSource) source).then_then fun _ => ?_
  refine (twins_upsert u u' (settled_orInternal .updatingDestination) destination).then_then
    fun _ => ?_
  exact twins_commit u u' (settled_orInternal .committingTransfer)

theorem twins_transfer (settings : Settings) (request : Request) (source destination : AccountId)
    (amount : Amount) :
    (transfer settings request source destination amount).Twins (Agree none) none
      (transfer settings request source destination amount) := by
  refine (twins_checkFresh settings request none).then fun _ => ?_
  refine twins_ask (.findByTransaction request.transaction) fun r r' o' he => ?_
  cases he with | findByTransaction _ same => ?_
  refine (twins_checkUnused same _ _ none).then fun _ => ?_
  split
  · exact twins_reject_bind _ _ _
  refine twins_openUnit .openingUnit fun u u' => ?_
  refine (twins_lockPair u u' source destination).then fun rows => ?_
  refine ((settled_requireRow (.sourceNotFound source) rows.1).twins _).then fun sourceRow => ?_
  refine ((settled_requireRow (.destinationNotFound destination) rows.2).twins _).then
    fun destinationRow => ?_
  refine twins_ask (.findByTransactionIn u u' request.transaction) fun r r' o' he => ?_
  cases he with | findByTransactionIn _ _ _ same => ?_
  refine (twins_checkUnused same _ _ _).then fun _ => ?_
  refine (twins_now _).then fun now => ?_
  refine ((settled_ofResult (sourceRow.debited amount now)).twins _).then fun debited => ?_
  refine ((settled_ofResult (destinationRow.credited amount now)).twins _).then fun credited => ?_
  refine (twins_transferBatches u u' settings request source destination amount).then
    fun batches => ?_
  exact twins_writeTransfer u u' batches.1 batches.2 debited credited

theorem twins_lookup (id : AccountId) : (lookup id).Twins (Agree none) none (lookup id) := by
  refine twins_ask (.findAccount id) fun r r' o' he => ?_
  cases he
  cases r with
  | ok a => exact twins_pure ⟨rfl, rfl⟩
  | error e =>
    dsimp only
    split <;> exact twins_reject _

end Workflow

/-- The program of a command is its own twin. -/
theorem Command.twins_program (settings : Settings) (command : Command) :
    (command.program settings).Twins (fun _ r r' => r = r') none (command.program settings) := by
  have hworkflow : (command.workflow settings).Twins (Agree none) none
      (command.workflow settings) := by
    cases command with
    | create request id initial => exact (Workflow.twins_create settings request id initial).map _
    | transfer request source destination amount =>
      exact (Workflow.twins_transfer settings request source destination amount).map _
    | get id => exact (Workflow.twins_lookup id).map _
  refine Program.Twins.mono hworkflow fun o r r' h => ?_
  cases h with
  | ok h => rw [h.2]
  | error why => rfl

end Bookkeeping
