import Bookkeeping.Proofs.ProgramRuns

/-! # No store error is swallowed

A command goes on after an error of its store only where it looks something up that may be missing. Any
other error is the last thing that it is told: it fails for this error at once, and it fails for an error
of its store in no other case.
-/
namespace Bookkeeping
open Bookkeeping.Time

namespace Call

def looksUp : Call → Bool
  | .findAccount _ | .lockAccount .. | .findByTransaction _ | .findByTransactionIn ..
  | .findLast _ | .findLastIn .. => true
  | _ => false

def records : Call → Bool
  | .append .. | .upsertAccount .. | .commit _ => true
  | _ => false

end Call

inductive Treatment where
  | tolerated
  | becomes (e : LedgerError)
  | internal
  deriving DecidableEq

def Treatment.Leads : Treatment → StoreError → Failure → Prop
  | .tolerated, _, _ => False
  | .becomes x, _, why => why = .rejected x
  | .internal, e, why => ∃ step, why = .rejected (.internal step e)

namespace Command

/-- That something is missing is a normal answer to what looks it up, and the answer to a lookup by a
caller; that an opening meets a conflict means that the account exists. -/
def treatment (command : Command) (c : Call) (e : StoreError) : Treatment :=
  match command with
  | .get id => if c.looksUp && e.isNotFound then .becomes (.accountNotFound id) else .internal
  | .create _ id _ =>
    if c.looksUp && e.isNotFound then .tolerated
    else if c.records && e.isConflict then .becomes (.alreadyExists id)
    else .internal
  | .transfer .. => if c.looksUp && e.isNotFound then .tolerated else .internal

def Quiet (command : Command) (h : List Observation) : Prop :=
  ∀ c e, .replied c (.error e) ∈ h → command.treatment c e = .tolerated

/-- A failure fits what a command was told: it fails for a reason of its own, or for the error that it
was told last. -/
inductive Explains (command : Command) : List Observation → Failure → Prop where
  | own {h : List Observation} {why : Failure} (quiet : command.Quiet h)
      (own : ∀ step e, why ≠ .rejected (.internal step e)) : command.Explains h why
  | due {h : List Observation} {c : Call} {e : StoreError} {why : Failure} (quiet : command.Quiet h)
      (leads : (command.treatment c e).Leads e why) :
      command.Explains (h ++ [.replied c (.error e)]) why

def Accounts {α : Type} (command : Command) (h : List Observation) : Except Failure α → Prop
  | .ok _ => command.Quiet h
  | .error why => command.Explains h why

/-- Calls are made only as long as all errors were tolerated. -/
def quietly (command : Command) : Rule := fun h _ => command.Quiet h

variable {command : Command} {h : List Observation} {c : Call} {e : StoreError}

theorem treatment_ne_becomes_internal {step : Step} {e' : StoreError} :
    command.treatment c e ≠ .becomes (.internal step e') := by
  intro he
  unfold treatment at he
  split at he
  · split at he <;> cases he
  · split at he
    · cases he
    · split at he <;> cases he
  · split at he <;> cases he

theorem eq_of_leads_internal {step : Step} {e' : StoreError}
    (h : (command.treatment c e).Leads e (.rejected (.internal step e'))) :
    e = e' ∧ command.treatment c e = .internal := by
  cases ht : command.treatment c e with
  | tolerated =>
    rw [ht] at h
    cases h
  | becomes x =>
    rw [ht] at h
    cases h
    exact absurd ht treatment_ne_becomes_internal
  | internal =>
    rw [ht] at h
    obtain ⟨_, hwhy⟩ := h
    cases hwhy
    exact ⟨rfl, rfl⟩

theorem quiet_nil (command : Command) : command.Quiet [] := fun _ _ he => by cases he

theorem Quiet.read (hq : command.Quiet h) (t : Instant) : command.Quiet (h ++ [.read t]) := by
  intro c e he
  rcases List.mem_append.mp he with he | he
  · exact hq c e he
  · cases List.mem_singleton.mp he

theorem Quiet.replied (hq : command.Quiet h) {r : c.Reply}
    (hr : ∀ e, r = .error e → command.treatment c e = .tolerated) :
    command.Quiet (h ++ [.replied c r]) := by
  intro c' e he
  rcases List.mem_append.mp he with he | he
  · exact hq c' e he
  · cases List.mem_singleton.mp he
    exact hr e rfl

end Command

namespace Workflow

variable {α β γ : Type} {command : Command} {w : Workflow α} {c : Call}

/-- From an untroubled start a workflow calls its store as long as all errors are tolerated, and its
result fits what it was told. -/
def Faithful (command : Command) (w : Workflow α) : Prop :=
  ∀ h, command.Quiet h →
    w.program.Obeys command.quietly.contract (fun h r => command.Accounts h r) h

theorem faithful_pure (a : α) : Faithful command (pure a) := fun _ hq => hq

theorem faithful_reject {x : LedgerError} (hx : x.source? = none) :
    Faithful command (reject (α := α) x) := by
  intro h hq
  refine .own hq fun step e he => ?_
  cases he
  cases hx

theorem faithful_reject_bind {x : LedgerError} {f : α → Workflow β} (hx : x.source? = none) :
    Faithful command (reject x >>= f) :=
  faithful_reject (α := β) hx

theorem faithful_ofResult {r : Except Failure α}
    (hr : ∀ step e, r ≠ .error (.rejected (.internal step e))) : Faithful command (ofResult r) := by
  intro h hq
  cases r with
  | ok a => exact hq
  | error why => exact .own hq fun step e he => hr step e (congrArg Except.error he)

theorem Faithful.bind {f : α → Workflow β} (hw : Faithful command w)
    (hf : ∀ a, Faithful command (f a)) : Faithful command (w >>= f) := by
  intro h hq
  rw [program_bind, Program.obeys_bind]
  refine (hw h hq).mono fun h r hr => ?_
  cases r with
  | ok a => exact hf a h hr
  | error why => exact hr

theorem Faithful.map {f : α → β} (hw : Faithful command w) : Faithful command (f <$> w) := by
  rw [map_eq_pure_bind]
  exact hw.bind fun a => faithful_pure (f a)

theorem faithful_now : Faithful command now := fun _ hq t => hq.read t

/-- What comes of a call is handled as the command treats it. -/
structure Handles (command : Command) (c : Call) (handle : Except StoreError β → Workflow α) :
    Prop where
  ok : ∀ v, Faithful command (handle (.ok v))
  tolerated : ∀ e, command.treatment c e = .tolerated → Faithful command (handle (.error e))
  becomes : ∀ e x, command.treatment c e = .becomes x → handle (.error e) = reject x
  internal : ∀ e, command.treatment c e = .internal →
    ∃ step, handle (.error e) = reject (.internal step e)

namespace Handles

theorem reply_ok {handle : Except StoreError β → Workflow α} (hh : Handles command c handle)
    {h : List Observation} (hq : command.Quiet h) (v : c.Value) (b : β) :
    (handle (.ok b)).program.Obeys command.quietly.contract (fun h r => command.Accounts h r)
      (h ++ [.replied c (.ok v)]) :=
  hh.ok b _ (hq.replied fun e he => by cases he)

theorem reply_error {handle : Except StoreError β → Workflow α} (hh : Handles command c handle)
    {h : List Observation} (hq : command.Quiet h) (e : StoreError) :
    (handle (.error e)).program.Obeys command.quietly.contract (fun h r => command.Accounts h r)
      (h ++ [.replied c (.error e)]) := by
  cases ht : command.treatment c e with
  | tolerated =>
    refine hh.tolerated e ht _ (hq.replied fun e' he => ?_)
    cases he
    exact ht
  | becomes x =>
    rw [hh.becomes e x ht]
    exact .due hq (by rw [ht]; rfl)
  | internal =>
    obtain ⟨step, hstep⟩ := hh.internal e ht
    rw [hstep]
    exact .due hq (by rw [ht]; exact ⟨step, rfl⟩)

theorem ask {handle : c.Reply → Workflow α} (hh : Handles command c handle) :
    Faithful command (Workflow.ask c >>= handle) := by
  intro h hq
  rw [program_bind]
  refine ⟨hq, fun r => ?_⟩
  cases r with
  | ok v => exact hh.reply_ok hq v v
  | error e => exact hh.reply_error hq e

theorem place {u : UnitId} {b : EntryBatch}
    {handle : Except StoreError Nat → Workflow α} (hh : Handles command (.append u b.pending) handle) :
    Faithful command (perform ((EntryBatch.place u).on b) >>= fun x => handle x.1) := by
  intro h hq
  by_cases hb : b.pending = []
  · rw [EntryBatch.on_place_nil u hb]
    exact hh.ok 0 h hq
  · rw [EntryBatch.on_place u hb, program_bind]
    refine ⟨hq, fun r => ?_⟩
    cases r with
    | ok v => exact hh.reply_ok hq v _
    | error e => exact hh.reply_error hq e

end Handles

/-! ## The steps that workflows share -/

theorem Faithful.step {g : α → Workflow β} {f : β → Workflow γ} (hg : Faithful command (w >>= g))
    (hf : ∀ b, Faithful command (f b)) : Faithful command (w >>= fun a => g a >>= f) := by
  rw [← bind_assoc]
  exact hg.bind hf

def Writes (command : Command) : Prop := ∀ id, command ≠ .get id

theorem treatment_of_looksUp (hw : Writes command) (hc : c.looksUp = true) (e : StoreError) :
    command.treatment c e = if e.isNotFound then .tolerated else .internal := by
  have hrecords : c.records = false := by cases c <;> first | rfl | cases hc
  cases command with
  | get id => exact absurd rfl (hw id)
  | create request id initial => simp [Command.treatment, hc, hrecords]
  | transfer request source destination amount => simp [Command.treatment, hc]

theorem handles_lookup {handle : Except StoreError β → Workflow α} (hw : Writes command)
    (hc : c.looksUp = true) (hok : ∀ v, Faithful command (handle (.ok v)))
    (hmissing : ∀ e, e.isNotFound = true → Faithful command (handle (.error e)))
    (herror : ∀ e, ¬e.isNotFound = true → ∃ step, handle (.error e) = reject (.internal step e)) :
    Handles command c handle := by
  refine ⟨hok, fun e he => ?_, fun e x he => ?_, fun e he => ?_⟩ <;>
    rw [treatment_of_looksUp hw hc] at he <;> split at he
  · exact hmissing e ‹_›
  · cases he
  · cases he
  · cases he
  · cases he
  · exact herror e ‹_›

theorem handles_becoming {handle : Except StoreError β → Workflow α} {x : LedgerError}
    {p : StoreError → Bool}
    (ht : ∀ e, command.treatment c e = if p e then .becomes x else .internal)
    (hok : ∀ v, Faithful command (handle (.ok v)))
    (hx : ∀ e, p e = true → handle (.error e) = reject x)
    (herror : ∀ e, ¬p e = true → ∃ step, handle (.error e) = reject (.internal step e)) :
    Handles command c handle := by
  refine ⟨hok, fun e he => ?_, fun e y he => ?_, fun e he => ?_⟩ <;>
    rw [ht] at he <;> split at he
  · cases he
  · cases he
  · cases he
    exact hx e ‹_›
  · cases he
  · cases he
  · exact herror e ‹_›

theorem handles_orInternal {step : Step} (hc : ∀ e, command.treatment c e = .internal) :
    Handles command c (orInternal (α := α) step) := by
  refine ⟨faithful_pure, fun e he => ?_, fun e x he => ?_, fun e _ => ⟨step, rfl⟩⟩
  · rw [hc] at he
    cases he
  · rw [hc] at he
    cases he

theorem handles_checkUnused {t : TransactionId} {step : Step} (hw : Writes command)
    (hc : c.looksUp = true) : Handles command c (checkUnused t step) := by
  refine handles_lookup hw hc ?_ ?_ ?_
  · intro es
    cases es with
    | nil => exact faithful_pure ()
    | cons e rest => exact faithful_reject rfl
  · intro e he
    rw [checkUnused, if_pos he]
    exact faithful_pure ()
  · intro e he
    exact ⟨step, if_neg he⟩

theorem handles_lastSequence {step : Step} {f : SequenceNumber → β} (hw : Writes command)
    (hc : c.looksUp = true) :
    Handles command c fun r => orInternal step ((EntryBatch.lastSequence r).map f) := by
  refine handles_lookup hw hc (fun e => faithful_pure (f e.sequence)) ?_ ?_
  · intro e he
    rw [EntryBatch.lastSequence, if_pos he]
    exact faithful_pure (f .initial)
  · intro e he
    rw [EntryBatch.lastSequence, if_neg he]
    exact ⟨step, rfl⟩

theorem handles_orExists {request : Request} {id : AccountId} {initial : Amount} {step : Step}
    (hc : c.records = true) :
    Handles (.create request id initial) c (orExists (α := α) id step) := by
  have hlooks : c.looksUp = false := by cases c <;> first | rfl | cases hc
  have ht (e : StoreError) : Command.treatment (.create request id initial) c e =
      if e.isConflict then .becomes (.alreadyExists id) else .internal := by
    simp [Command.treatment, hlooks, hc]
  exact handles_becoming ht faithful_pure (fun _ he => if_pos he) fun _ he => ⟨step, if_neg he⟩

theorem faithful_checkFresh (settings : Settings) (request : Request) :
    Faithful command (checkFresh settings request) := by
  refine faithful_now.bind fun t => ?_
  split
  · exact faithful_pure t
  · exact faithful_reject rfl

theorem faithful_load {id : AccountId} {t : TransactionId} {version : SchemaVersion} {step : Step}
    (hw : Writes command) :
    Faithful command (perform (EntryBatch.load id t version) >>= orInternal step) := by
  have hh : Handles command (.findLast id) fun r =>
      orInternal step ((EntryBatch.lastSequence r).map (EntryBatch.startingAt id t version)) :=
    handles_lastSequence hw rfl
  exact hh.ask

theorem faithful_loadIn {u : UnitId} {id : AccountId} {t : TransactionId} {version : SchemaVersion}
    {step : Step} (hw : Writes command) :
    Faithful command (perform (EntryBatch.loadIn u id t version) >>= orInternal step) := by
  have hh : Handles command (.findLastIn u id) fun r =>
      orInternal step ((EntryBatch.lastSequence r).map (EntryBatch.startingAt id t version)) :=
    handles_lastSequence hw rfl
  exact hh.ask

theorem eq_overflow_of_record {b : EntryBatch} {e : Event} {why : Failure}
    (h : (EntryBatch.record e).update b = .error why) : why = .overflow .sequence := by
  rw [EntryBatch.update_record] at h
  split at h <;> cases h
  rfl

theorem faithful_record (b : EntryBatch) (e : Event) :
    Faithful command (ofResult ((EntryBatch.record e).update b)) := by
  apply faithful_ofResult
  intro step e' he
  cases eq_overflow_of_record he

theorem faithful_recordOpening (b : EntryBatch) (initial : Amount) :
    Faithful command (ofResult ((recordOpening initial).update b)) := by
  apply faithful_ofResult
  intro step e he
  rw [Method.update, recordOpening, Method.on_bind, EntryBatch.on_record] at he
  cases hnext : b.sequence.next? with
  | none =>
    rw [hnext] at he
    cases he
  | some n =>
    rw [hnext] at he
    change (EntryBatch.record _).update _ = _ at he
    cases eq_overflow_of_record he

/-! ## The workflows -/

theorem handles_checkAbsent {id : AccountId} (hw : Writes command) :
    Handles command (.findAccount id) (checkAbsent id) := by
  refine handles_lookup hw rfl (fun _ => faithful_reject rfl) (fun e he => ?_) fun e he => ?_
  · rw [checkAbsent, if_pos he]
    exact faithful_pure ()
  · exact ⟨_, if_neg he⟩

theorem faithful_writeOpening {request : Request} {id : AccountId} {initial : Amount}
    (batch : EntryBatch) {account : Account} (hid : account.id = id) :
    Faithful (.create request id initial) (writeOpening batch account) := by
  rw [writeOpening, hid]
  refine (handles_orInternal fun e => ?_).ask.step fun u => ?_
  · rfl
  refine (handles_orExists rfl).place.step fun _ => ?_
  refine (handles_orExists rfl).ask.step fun _ => ?_
  exact (handles_orExists rfl).ask

theorem faithful_create (settings : Settings) (request : Request) (id : AccountId) (initial : Amount) :
    Faithful (.create request id initial) (create settings request id initial) := by
  have hw : Writes (.create request id initial) := fun _ he => by cases he
  refine (faithful_checkFresh settings request).bind fun now => ?_
  refine (handles_checkAbsent hw).ask.step fun _ => ?_
  refine (handles_checkUnused hw rfl).ask.step fun _ => ?_
  refine (faithful_load hw).step fun batch => ?_
  split
  · exact faithful_reject_bind rfl
  · refine (faithful_recordOpening batch initial).bind fun batch => ?_
    have hid : (Account.opened id initial now).id = id := rfl
    exact (faithful_writeOpening batch hid).bind fun _ => faithful_pure _

theorem handles_lockedRow {u : UnitId} {id : AccountId} (hw : Writes command) :
    Handles command (.lockAccount u id) lockedRow := by
  refine handles_lookup hw rfl (fun a => faithful_pure (some a)) (fun e he => ?_) fun e he => ?_
  · rw [lockedRow, if_pos he]
    exact faithful_pure none
  · exact ⟨_, if_neg he⟩

theorem faithful_lockPair (hw : Writes command) (u : UnitId) (source destination : AccountId) :
    Faithful command (lockPair u source destination) := by
  unfold lockPair
  split
  all_goals
    refine (handles_lockedRow hw).ask.step fun low => ?_
    refine (handles_lockedRow hw).ask.step fun high => ?_
    exact faithful_pure _

theorem faithful_requireRow {missing : LedgerError} (hx : missing.source? = none)
    (row : Option Account) : Faithful command (requireRow missing row) := by
  cases row with
  | none => exact faithful_reject hx
  | some a => exact faithful_pure a

theorem faithful_debit (a : Account) (amount : Amount) (now : Instant) :
    Faithful command (ofResult (a.debited amount now)) := by
  apply faithful_ofResult
  intro step e he
  rw [Account.debited_eq] at he
  split at he
  · split at he <;> cases he
  · cases he

theorem faithful_credit (a : Account) (amount : Amount) (now : Instant) :
    Faithful command (ofResult (a.credited amount now)) := by
  apply faithful_ofResult
  intro step e he
  rw [Account.credited_eq] at he
  split at he <;> cases he

theorem faithful_transferBatches (hw : Writes command) (settings : Settings) (request : Request)
    (u : UnitId) (source destination : AccountId) (amount : Amount) :
    Faithful command (transferBatches settings request u source destination amount) := by
  unfold transferBatches
  refine (faithful_loadIn hw).step fun debits => ?_
  refine (faithful_loadIn hw).step fun credits => ?_
  refine (faithful_record debits _).bind fun debits => ?_
  exact (faithful_record credits _).bind fun credits => faithful_pure _

variable {request : Request} {source destination : AccountId} {amount : Amount}

theorem handles_transfer {step : Step} (hc : c.looksUp = false) :
    Handles (.transfer request source destination amount) c (orInternal (α := α) step) := by
  apply handles_orInternal
  intro e
  simp [Command.treatment, hc]

theorem faithful_writeTransfer (u : UnitId) (debits credits : EntryBatch) (debited credited : Account) :
    Faithful (.transfer request source destination amount)
      (writeTransfer u debits credits debited credited) := by
  unfold writeTransfer
  refine (handles_transfer rfl).place.step fun _ => ?_
  refine (handles_transfer rfl).place.step fun _ => ?_
  refine (handles_transfer rfl).ask.step fun _ => ?_
  refine (handles_transfer rfl).ask.step fun _ => ?_
  exact (handles_transfer rfl).ask

theorem faithful_transfer (settings : Settings) (request : Request) (source destination : AccountId)
    (amount : Amount) :
    Faithful (.transfer request source destination amount)
      (transfer settings request source destination amount) := by
  have hw : Writes (.transfer request source destination amount) := fun _ he => by cases he
  refine (faithful_checkFresh settings request).bind fun _ => ?_
  refine (handles_checkUnused hw rfl).ask.step fun _ => ?_
  split
  · exact faithful_reject_bind rfl
  refine (handles_transfer rfl).ask.step fun u => ?_
  refine (faithful_lockPair hw u source destination).bind fun rows => ?_
  refine (faithful_requireRow rfl rows.1).bind fun a => ?_
  refine (faithful_requireRow rfl rows.2).bind fun c => ?_
  refine (handles_checkUnused hw rfl).ask.step fun _ => ?_
  refine faithful_now.bind fun now => ?_
  refine (faithful_debit a amount now).bind fun debited => ?_
  refine (faithful_credit c amount now).bind fun credited => ?_
  refine (faithful_transferBatches hw settings request u source destination amount).bind fun _ => ?_
  exact faithful_writeTransfer u _ _ debited credited

theorem faithful_lookup (id : AccountId) : Faithful (.get id) (lookup id) := by
  have ht (e : StoreError) : Command.treatment (.get id) (.findAccount id) e =
      if e.isNotFound then .becomes (.accountNotFound id) else .internal := by
    simp [Command.treatment, Call.looksUp]
  refine (handles_becoming ht faithful_pure (fun _ he => ?_) fun _ he => ?_).ask
  · exact if_pos he
  · exact ⟨.lookingUp, if_neg he⟩

end Workflow

namespace Command

variable {command : Command} {h : List Observation} {why : Failure}

theorem faithful (settings : Settings) (command : Command) :
    Workflow.Faithful command (command.workflow settings) := by
  cases command with
  | create request id initial => exact (Workflow.faithful_create settings request id initial).map
  | transfer request source destination amount =>
    exact (Workflow.faithful_transfer settings request source destination amount).map
  | get id => exact (Workflow.faithful_lookup id).map

/-- A failure after an error that is not tolerated is due to this error, which came last. -/
theorem Explains.due_of_not_quiet (hx : command.Explains h why) (hq : ¬command.Quiet h) :
    ∃ before c e, h = before ++ [.replied c (.error e)] ∧ command.Quiet before ∧
      (command.treatment c e).Leads e why := by
  cases hx with
  | own quiet _ => exact absurd quiet hq
  | due quiet leads => exact ⟨_, _, _, rfl, quiet, leads⟩

theorem done_of_not_quiet {α : Type} {p : Program (Except Failure α)}
    (hp : p.Obeys command.quietly.contract (fun h r => command.Accounts h r) h)
    (hq : ¬command.Quiet h) : ∃ why, p = .done (.error why) ∧ command.Explains h why := by
  induction p generalizing h with
  | done r =>
    cases r with
    | ok a => exact absurd hp hq
    | error why => exact ⟨why, rfl, hp⟩
  | call c next => exact absurd hp.1 hq
  | clock next ih =>
    -- a reading of the clock would be what came last
    have hread : ¬command.Quiet (h ++ [.read System.epoch]) := fun hquiet =>
      hq fun c e he => hquiet c e (List.mem_append_left _ he)
    obtain ⟨why, -, hx⟩ := ih _ (hp System.epoch) hread
    obtain ⟨before, c, e, he, -⟩ := hx.due_of_not_quiet hread
    cases (List.append_inj_right' he rfl)

/-- Over any store, whatever it replies, an error that a command does not tolerate is the last thing that
it is told: it is done then, and fails as it treats this error, with the error itself as the source of an
internal one. And an internal error comes from nothing else but the error that the command was told last
and the first that it did not tolerate. -/
theorem store_errors_surface (settings : Settings) (command : Command) {h : List Observation}
    {p : Program (Except Failure Answer)} (hr : (command.program settings).Reaches h p) :
    (∀ before c e after, h = before ++ .replied c (.error e) :: after →
      command.treatment c e ≠ .tolerated →
      after = [] ∧ ∃ why, p = .done (.error why) ∧ (command.treatment c e).Leads e why) ∧
    ∀ step e, p = .done (.error (.rejected (.internal step e))) →
      ∃ before c, h = before ++ [.replied c (.error e)] ∧ command.Quiet before ∧
        command.treatment c e = .internal := by
  have hobeys := hr.obeys_rule (faithful settings command [] (quiet_nil command))
  rw [List.nil_append] at hobeys
  constructor
  · rintro before c e after rfl ht
    have hq : ¬command.Quiet (before ++ .replied c (.error e) :: after) := fun hquiet =>
      ht (hquiet c e (by simp))
    obtain ⟨why, rfl, hx⟩ := done_of_not_quiet hobeys hq
    obtain ⟨before', c', e', he, hquiet, hleads⟩ := hx.due_of_not_quiet hq
    -- were anything told after this error, the error that came last would be a second one
    rcases List.eq_nil_or_concat after with rfl | ⟨middle, last, rfl⟩
    · cases (List.append_inj_right' he rfl)
      exact ⟨rfl, why, rfl, hleads⟩
    · have hlast : (before ++ .replied c (.error e) :: middle) ++ [last] =
          before' ++ [.replied c' (.error e')] := by
        rw [← he]
        simp
      rw [← List.append_inj_left' hlast rfl] at hquiet
      exact absurd (hquiet c e (by simp)) ht
  · rintro step e rfl
    have hx : command.Explains h (.rejected (.internal step e)) := hobeys
    cases hx with
    | own _ own => exact absurd rfl (own step e)
    | @due before c e' _ quiet leads =>
      obtain ⟨rfl, ht⟩ := eq_of_leads_internal leads
      exact ⟨before, c, rfl, quiet, ht⟩

/-- An opening at a fresh time finds no row, and then its store fails to look the transaction up. -/
def troubled : List Observation :=
  [.read System.epoch, .replied (.findAccount System.idA) (.error (.notFound "account")),
    .replied (.findByTransaction System.txA) (.error (.conflict .findByTransaction))]

theorem store_errors_surface_troubled :
    let command := Command.create ⟨System.txA, System.epoch⟩ System.idA System.ten
    ∃ p, (command.program .standard).Reaches troubled p ∧
      ∃ why, p = .done (.error why) ∧
        (command.treatment (.findByTransaction System.txA) (.conflict .findByTransaction)).Leads
          (.conflict .findByTransaction) why := by
  intro command
  have hr : (command.program .standard).Reaches troubled
      (.done (.error (.rejected (.internal .checkingTransaction (.conflict .findByTransaction))))) :=
    .read _ (.replied _ (.replied _ (.start _)))
  obtain ⟨hdone, -⟩ := store_errors_surface .standard command hr
  exact ⟨_, hr, (hdone (troubled.take 2) _ _ [] rfl (by decide)).2⟩

end Command

end Bookkeeping
