import Bookkeeping.Proofs.Gates
import Bookkeeping.Proofs.Rules

/-! # The gates of an opening

Some operations of the store may be armed to fail. An opening then fails at the first of its gates that
is shut: one of its checks, or an armed operation that it gets to, in the order in which it asks for
them. If all gates are open, the account is opened, and a lookup finds it.
-/
namespace Bookkeeping
open Bookkeeping.Time

/-! ## Programs under armed operations -/

/-- An operation is armed to fail. The end of a unit of work never is. -/
def Armed (failing : List Operation) (op : Operation) : Prop := Faults.Fails { failing } op

instance (failing : List Operation) (op : Operation) : Decidable (Armed failing op) :=
  inferInstanceAs (Decidable (Faults.Fails _ op))

abbrev Rule.unarmed (failing : List Operation) : Rule := fun _ c => ¬Armed failing c.operation

def Operation.injected (op : Operation) : StoreError := .failure op .injected

def Solo.replyUnder (failing : List Operation) (c : Call) : StateT Solo Option c.Reply := fun s =>
  if Armed failing c.operation then some (.error c.operation.injected, s) else reply c s

variable {failing : List Operation}

namespace Backend

variable {s : Store} {now : Duration} {c : Call}

theorem attempt_failing (s : Store) (failing : List Operation) (now : Duration) (c : Call) :
    attempt ⟨s, { failing }⟩ now c .fresh = enter ⟨s, { failing }⟩ c := by
  cases c <;> rfl

theorem attempt_armed (h : Armed failing c.operation) :
    attempt ⟨s, { failing }⟩ now c .fresh =
      .replied (.error c.operation.injected) ⟨s, { failing }⟩ := by
  rw [attempt_failing]
  exact if_pos h

theorem attempt_unarmed (h : ¬Armed failing c.operation) {r : c.Reply} {s' : Store}
    (hr : s.respond c = .replied r s') :
    attempt ⟨s, { failing }⟩ now c .fresh = .replied r ⟨s', { failing }⟩ := by
  rw [attempt_failing]
  refine (if_neg h).trans ?_
  simp only [hr]

end Backend

namespace Program

variable {α : Type} {a : α} {s : Store} {u : Option UnitId} {c : Clock} {n : Nat} {solo : Solo}

theorem unitAfter_error (u : Option UnitId) (c : Call) (e : StoreError) :
    unitAfter u c (.error e) = u := by
  cases c <;> rfl

theorem advance_under {p : Program α} (now : Duration)
    (h : p.answer (Solo.replyUnder failing) Solo.clock ⟨s, c.shows n, u⟩ = some (a, solo)) :
    ∃ c', p.advance now .fresh u ⟨⟨s, { failing }⟩, c⟩ =
      (.finished a, ⟨⟨solo.leave, { failing }⟩, c'⟩) := by
  induction p generalizing s u c n with
  | done b =>
    cases h
    cases u <;> exact ⟨c, rfl⟩
  | call call next ih =>
    obtain ⟨⟨r, s₁⟩, hr, hnext⟩ := Option.bind_eq_some_iff.mp h
    rw [advance]
    unfold Solo.replyUnder at hr
    split at hr
    · rename_i harmed
      cases hr
      rw [Backend.attempt_armed harmed]
      simp only [unitAfter_error]
      exact ih _ hnext
    · rename_i hfree
      unfold Solo.reply at hr
      split at hr
      · rename_i r' store hreply
        cases hr
        rw [Backend.attempt_unarmed hfree hreply]
        exact ih _ hnext
      · cases hr
  | clock next ih =>
    obtain ⟨⟨t, s₁⟩, ht, hnext⟩ := Option.bind_eq_some_iff.mp h
    cases n with
    | zero => cases ht
    | succ n =>
      cases ht
      exact ih _ hnext

theorem answer_replyUnder {p : Program α} {s : Solo} {h : List Observation}
    (hfree : p.Obeys (Rule.unarmed failing).contract (fun _ _ => True) h) :
    p.answer (Solo.replyUnder failing) Solo.clock s = p.answer Solo.reply Solo.clock s := by
  induction p generalizing s h with
  | done a => rfl
  | call c next ih =>
    have hreply : Solo.replyUnder failing c s = Solo.reply c s := if_neg hfree.1
    exact congrArg₂ Option.bind hreply (funext fun x => ih x.1 (hfree.2 x.1))
  | clock next ih =>
    exact congrArg (Option.bind (Solo.clock s)) (funext fun x => ih x.1 (hfree x.1))

end Program

/-! ## Workflows under armed operations -/

namespace Workflow

variable {α β γ : Type} {w : Workflow α} {f : α → Workflow β} {g : β → Workflow γ} {a : α} {b : β}
  {s s' s'' : Solo} {why : Failure} {c : Call}

def Meets (failing : List Operation) (w : Workflow α) (s : Solo) (r : Except Failure α)
    (s' : Solo) : Prop :=
  w.program.answer (Solo.replyUnder failing) Solo.clock s = some (r, s')

theorem Meets.then {r : Except Failure β} (h : w.Meets failing s (.ok a) s')
    (hf : (f a).Meets failing s' r s'') : (w >>= f).Meets failing s r s'' := by
  rw [Meets, program_bind, Program.answer_bind]
  exact Option.bind_eq_some_iff.mpr ⟨_, h, hf⟩

theorem Meets.then_then {r : Except Failure γ} (h : (w >>= f).Meets failing s (.ok b) s')
    (hg : (g b).Meets failing s' r s'') : (w >>= fun a => f a >>= g).Meets failing s r s'' := by
  rw [← bind_assoc]
  exact h.then hg

theorem Meets.stop (h : w.Meets failing s (.error why) s') :
    (w >>= f).Meets failing s (.error why) s' := by
  rw [Meets, program_bind, Program.answer_bind]
  exact Option.bind_eq_some_iff.mpr ⟨_, h, rfl⟩

theorem Meets.stop_then (h : (w >>= f).Meets failing s (.error why) s') :
    (w >>= fun a => f a >>= g).Meets failing s (.error why) s' := by
  rw [← bind_assoc]
  exact h.stop

/-- What asks for no armed operation runs as ever. -/
theorem Comes.meets {r : Except Failure α} (h : w.Comes s r s')
    (hfree : w.Obeys (Rule.unarmed failing).contract (fun _ _ => True) []) :
    w.Meets failing s r s' := by
  have hprogram : w.program.Obeys (Rule.unarmed failing).contract (fun _ _ => True) [] :=
    Program.Obeys.mono hfree fun _ _ _ => trivial
  rw [Meets, Program.answer_replyUnder hprogram]
  exact h

theorem meets_reject (e : LedgerError) (s : Solo) :
    (reject e : Workflow α).Meets failing s (.error (.rejected e)) s := rfl

theorem meets_pure (a : α) (s : Solo) : (pure a : Workflow α).Meets failing s (.ok a) s := rfl

theorem meets_ask {r : c.Reply} {store : Store} (hc : ¬Armed failing c.operation)
    (h : s.store.respond c = .replied r store) :
    (ask c).Meets failing s (.ok r) { s with store, unit := unitAfter s.unit c r } :=
  (Gives.ask h).comes.meets (obeys_ask.mpr ⟨hc, fun _ => trivial⟩)

theorem meets_call_armed {next : c.Reply → Program α} (hc : Armed failing c.operation)
    (hn : next (.error c.operation.injected) = .done a) :
    (perform (.call c next)).Meets failing s (.ok a) s := by
  have hreply : Solo.replyUnder failing c s = some (.error c.operation.injected, s) := if_pos hc
  rw [Meets, program_perform, Program.answer_bind]
  have hdone : (next (.error c.operation.injected)).answer (Solo.replyUnder failing) Solo.clock s =
      some (a, s) := by rw [hn]; rfl
  refine Option.bind_eq_some_iff.mpr ⟨(a, s), ?_, rfl⟩
  exact Option.bind_eq_some_iff.mpr ⟨_, hreply, hdone⟩

theorem meets_ask_armed (hc : Armed failing c.operation) (s : Solo) :
    (ask c).Meets failing s (.ok (.error c.operation.injected)) s :=
  meets_call_armed hc rfl

theorem Meets.map {r : Except Failure α} (f : α → β) (h : w.Meets failing s r s') :
    (f <$> w).Meets failing s (r.map f) s' := by
  rw [map_eq_pure_bind]
  cases r with
  | error why => exact h.stop
  | ok a => exact h.then (meets_pure (f a) s')

end Workflow

/-! ## Openings -/

/-- The gate at a step that asks for an operation. -/
def armedGate (failing : List Operation) (op : Operation) (step : Step) : Option LedgerError :=
  gate (Armed failing op) (.internal step op.injected)

def passing {α : Type} (gates : List (Option LedgerError)) (a : α) : Except Failure α :=
  match firstShut gates with
  | some e => .error (.rejected e)
  | none => .ok a

theorem passing_of_shut {α : Type} {gates : List (Option LedgerError)} {e : LedgerError}
    (h : firstShut gates = some e) (a : α) : passing gates a = .error (.rejected e) := by
  rw [passing, h]

theorem passing_of_open {α : Type} {gates : List (Option LedgerError)}
    (h : firstShut gates = none) (a : α) : passing gates a = .ok a := by
  rw [passing, h]

theorem passing_gate {α : Type} (shut : Prop) [Decidable shut] (e : LedgerError)
    (rest : List (Option LedgerError)) (a : α) :
    passing (gate shut e :: rest) a = if shut then .error (.rejected e) else passing rest a := by
  by_cases h : shut <;> simp [passing, h]

/-- The gates of an opening while its unit of work is open. -/
def writingGates (failing : List Operation) : List (Option LedgerError) :=
  [armedGate failing .openUnit .openingUnit, armedGate failing .append .placingOpening,
    armedGate failing .upsertAccount .insertingAccount]

def Book.openingGates (b : Book) (failing : List Operation) (settings : Settings)
    (request : Request) (id : AccountId) (checked : Instant) : List (Option LedgerError) :=
  [gate (¬Workflow.Fresh settings request checked)
      (.invalidRequestTime request.time checked settings.threshold.duration),
    armedGate failing .findAccount .checkingForAccount,
    gate (b.row id ≠ none) (.alreadyExists id),
    armedGate failing .findByTransaction .checkingTransaction,
    gate (b.Records request.transaction) (.alreadyRecorded request.transaction),
    armedGate failing .findLast .loadingSequence] ++ writingGates failing

namespace Workflow

variable {settings : Settings} {request : Request} {s base : Store} {id : AccountId}
  {initial : Amount} {now : Instant} {u : UnitId} {w : WorkUnit} {batch : EntryBatch} {p : Posting}

variable (base u w) in
theorem meets_place (hfree : ¬Armed failing .append) (account : AccountId)
    (hne : batch.pending ≠ [])
    (hfits : base.Fits (w.entries.map (·.toDraft) ++ batch.pending)) :
    ∃ x key new, new.map (·.toDraft) = batch.pending ∧
      Meets failing (do orExists account .placingOpening (← perform ((EntryBatch.place u).on batch)).1)
        ⟨base.holding u w, [], some u⟩ (.ok x)
        ⟨{ base with lastKey := key }.holding u { w with entries := w.entries ++ new }, [],
          some u⟩ := by
  obtain ⟨x, key, new, hnew, hgives⟩ := gives_place base u w []
    (passes_orExists account .placingOpening) hne hfits
  refine ⟨x, key, new, hnew, hgives.comes.meets ?_⟩
  refine (obeys_place hne).mpr ⟨hfree, ?_⟩
  intro r
  exact (passes_orExists _ _).obeys Rule.lenient fun _ _ => trivial

theorem meets_place_armed (harmed : Armed failing .append) (account : AccountId)
    (hne : batch.pending ≠ []) (s : Solo) :
    Meets failing (do orExists account .placingOpening (← perform ((EntryBatch.place u).on batch)).1) s
      (.error (.rejected (.internal .placingOpening Operation.append.injected))) s := by
  rw [EntryBatch.on_place u hne]
  exact (meets_call_armed harmed rfl).then (meets_reject _ s)

variable (failing) in
theorem meets_writeOpening (hq : s.Quiet) (account : Account) (hpending : batch.pending = p.drafts)
    (hne : p.drafts ≠ []) (hrows : p.rows = [account]) (hfits : s.Fits p.drafts) :
    ∃ solo, (writeOpening batch account).Meets failing ⟨s, [], none⟩
      (passing (writingGates failing) ()) solo := by
  simp only [writingGates, armedGate, passing_gate]
  split
  · rename_i harmed
    exact ⟨_, ((meets_ask_armed harmed _).then (meets_reject _ _)).stop_then⟩
  rename_i hopen
  let opened : Store := { s with opened := s.opened + 1 }
  suffices hrest : ∃ solo, Meets failing (do
      let _ ← orExists account.id .placingOpening (← perform ((EntryBatch.place ⟨s.opened⟩).on batch)).1
      orExists account.id .insertingAccount (← ask (.upsertAccount ⟨s.opened⟩ account))
      orExists account.id .committingCreation (← ask (.commit ⟨s.opened⟩)))
      ⟨opened.holding ⟨s.opened⟩ {}, [], some ⟨s.opened⟩⟩
      (if Armed failing .append then
        .error (.rejected (.internal .placingOpening Operation.append.injected))
      else if Armed failing .upsertAccount then
        .error (.rejected (.internal .insertingAccount Operation.upsertAccount.injected))
      else passing [] ()) solo by
    obtain ⟨solo, hrest⟩ := hrest
    refine ⟨solo, Meets.then_then ?_ hrest⟩
    exact (meets_ask hopen (Store.respond_openUnit hq)).then (meets_pure _ _)
  split
  · rename_i harmed
    exact ⟨_, (meets_place_armed harmed account.id (hpending ▸ hne) _).stop_then⟩
  rename_i happend
  obtain ⟨x, key, new, hnew, hplace⟩ := meets_place opened ⟨s.opened⟩ {}
    happend account.id (hpending ▸ hne) (hpending ▸ hfits)
  split
  · rename_i harmed
    exact ⟨_, hplace.then_then
      ((meets_ask_armed harmed _).then (meets_reject _ _)).stop_then⟩
  rename_i hupsert
  obtain ⟨solo, hcommit, -⟩ := gives_commit { opened with lastKey := key } ⟨s.opened⟩
    { rows := [account], entries := [] ++ new } (passes_orExists account.id .committingCreation)
    hq.2 (p := p) (hnew.trans hpending) hrows.symm hfits
  have hfree : ¬Armed failing .commit := fun h => h.2.1 rfl
  refine ⟨solo, hplace.then_then (Meets.then_then (b := ()) ?_ (hcommit.comes.meets ?_))⟩
  · exact (meets_ask hupsert (Store.respond_upsertAccount account)).then (meets_pure _ _)
  · exact obeys_handled (passes_orExists _ _) hfree fun _ _ => trivial

/-- What is left of an opening once its transaction is known to be new. -/
def openUnused (settings : Settings) (request : Request) (id : AccountId) (initial : Amount)
    (now : Instant) : Workflow Account := do
  let batch ← orInternal .loadingSequence
    (← perform (EntryBatch.load id request.transaction settings.version))
  if batch.sequence ≠ .initial then reject (.alreadyExists id)
  let batch ← ofResult ((recordOpening initial).update batch)
  let account := Account.opened id initial now
  writeOpening batch account
  return account

/-- What is left of an opening once its time is known to be fresh. -/
def openFresh (settings : Settings) (request : Request) (id : AccountId) (initial : Amount)
    (now : Instant) : Workflow Account := do
  checkAbsent id (← ask (.findAccount id))
  checkUnused request.transaction .checkingTransaction
    (← ask (.findByTransaction request.transaction))
  openUnused settings request id initial now

theorem create_eq (settings : Settings) (request : Request) (id : AccountId) (initial : Amount) :
    create settings request id initial =
      checkFresh settings request >>= openFresh settings request id initial := rfl

theorem Meets.return {α : Type} {v : Workflow Unit} {gates : List (Option LedgerError)}
    {solo solo' : Solo} (h : v.Meets failing solo (passing gates ()) solo') (a : α) :
    Meets failing (do v; return a) solo (passing gates a) solo' := by
  cases hgates : firstShut gates with
  | some e =>
    rw [passing_of_shut hgates] at h ⊢
    exact h.stop
  | none =>
    rw [passing_of_open hgates] at h ⊢
    exact h.then (meets_pure a _)

variable (failing) in
theorem meets_openUnused (hq : s.Quiet) (hstream : s.book.stream id = [])
    (hfits : s.Fits (Posting.opening settings request id initial now).drafts) :
    ∃ solo, (openUnused settings request id initial now).Meets failing ⟨s, [], none⟩
      (passing (armedGate failing .findLast .loadingSequence :: writingGates failing)
        (.opened id initial now)) solo := by
  rw [armedGate, passing_gate]
  split
  · rename_i harmed
    exact ⟨_, ((meets_call_armed harmed rfl).then (meets_reject _ _)).stop_then⟩
  · rename_i hload
    have hlast : s.book.lastNumber id = .initial := by rw [Book.lastNumber, hstream]; rfl
    obtain ⟨batch, hbatch, hpending⟩ :=
      update_recordOpening settings request id initial now (n := .initial) rfl
    obtain ⟨solo, hwrite⟩ := meets_writeOpening failing hq (.opened id initial now) hpending
      (by simp [Posting.opening]) rfl hfits
    have hgives : Gives (do
        orInternal .loadingSequence
          (← perform (EntryBatch.load id request.transaction settings.version))) ⟨s, [], none⟩
        (.startingAt id request.transaction settings.version .initial) ⟨s, [], none⟩ :=
      hlast ▸ gives_load .loadingSequence
    have hobeys : Obeys (Rule.unarmed failing).contract (fun _ _ => True) (do
        orInternal .loadingSequence
          (← perform (EntryBatch.load id request.transaction settings.version))) [] := by
      refine obeys_load.mpr ⟨hload, ?_⟩
      intro last
      exact (passes_orInternal _).obeys Rule.lenient fun _ _ => trivial
    refine ⟨solo, (hgives.comes.meets hobeys).then_then ?_⟩
    rw [if_neg (by simp [EntryBatch.startingAt]), hbatch]
    exact (meets_pure batch _).then (hwrite.return _)

variable (failing) in
theorem meets_openFresh (hq : s.Quiet) (hk : s.book.Kept)
    (hfits : s.book.row id = none →
      s.Fits (Posting.opening settings request id initial now).drafts) :
    ∃ solo, (openFresh settings request id initial now).Meets failing ⟨s, [], none⟩
      (passing (armedGate failing .findAccount .checkingForAccount ::
          gate (s.book.row id ≠ none) (.alreadyExists id) ::
          armedGate failing .findByTransaction .checkingTransaction ::
          gate (s.book.Records request.transaction) (.alreadyRecorded request.transaction) ::
          armedGate failing .findLast .loadingSequence :: writingGates failing)
        (.opened id initial now)) solo := by
  have hrow : s.respond (.findAccount id) = .replied (foundOr "account" (s.book.row id)) s := rfl
  rw [armedGate, passing_gate]
  split
  · rename_i harmed
    exact ⟨_, ((meets_ask_armed harmed _).then (meets_reject _ _)).stop_then⟩
  rename_i hfind
  rw [passing_gate]
  split
  · rename_i hexists
    obtain ⟨a, ha⟩ := Option.ne_none_iff_exists'.mp hexists
    rw [ha] at hrow
    exact ⟨_, ((meets_ask hfind hrow).then (meets_reject _ _)).stop_then⟩
  rename_i hnone
  rw [not_not] at hnone
  rw [hnone] at hrow
  have habsent :=
    (meets_ask (s := ⟨s, [], none⟩) hfind hrow).then (f := checkAbsent id) (meets_pure () _)
  rw [armedGate, passing_gate]
  split
  · rename_i harmed
    exact ⟨_, habsent.then_then ((meets_ask_armed harmed _).then (meets_reject _ _)).stop_then⟩
  rename_i hlookup
  have hobeys : Obeys (Rule.unarmed failing).contract (fun _ _ => True) (do
      checkUnused request.transaction .checkingTransaction
        (← ask (.findByTransaction request.transaction))) [] :=
    obeys_unused hlookup fun _ => trivial
  rw [passing_gate]
  split
  · rename_i hrecorded
    have hcomes : Comes (do
        checkUnused request.transaction .checkingTransaction
          (← ask (.findByTransaction request.transaction))) ⟨s, [], none⟩ _ _ :=
      comes_checkUnused .checkingTransaction hrecorded
    exact ⟨_, habsent.then_then (hcomes.meets hobeys).stop_then⟩
  · rename_i hunused
    have hgives := gives_checkUnused (s := ⟨s, [], none⟩) .checkingTransaction
      (Store.entriesOf_of_not_records hunused)
    obtain ⟨solo, hrest⟩ := meets_openUnused failing hq ((hk.backed id).mp hnone) (hfits hnone)
    exact ⟨solo, habsent.then_then ((hgives.comes.meets hobeys).then_then hrest)⟩

variable (failing settings request id initial now) in
/-- An opening fails at its first gate that is shut, and succeeds if all of them are open. -/
theorem meets_create (hq : s.Quiet) (hk : s.book.Kept) :
    ∃ solo, (create settings request id initial).Meets failing ⟨s, [now], none⟩
      (passing (s.book.openingGates failing settings request id now) (.opened id initial now))
      solo := by
  have hfree : Obeys (Rule.unarmed failing).contract (fun _ _ => True) (checkFresh settings request)
      [] :=
    obeys_checkFresh (fun _ => Rule.lenient) fun _ _ => trivial
  rw [create_eq, Book.openingGates, List.cons_append, passing_gate]
  by_cases hfresh : Fresh settings request now
  · have hchecked := gives_checkFresh (s := ⟨s, [now], none⟩) rfl hfresh
    obtain ⟨solo, hrest⟩ := meets_openFresh failing hq hk fun hnone =>
      (Command.Posts.opening hfresh hnone ((hk.backed id).mp hnone)).fits hk
    rw [if_neg (not_not.mpr hfresh)]
    exact ⟨solo, (hchecked.comes.meets hfree).then hrest⟩
  · have hcomes : (checkFresh settings request).Comes ⟨s, [now], none⟩ _ _ := comes_checkFresh hfresh
    rw [if_pos hfresh]
    exact ⟨_, (hcomes.meets hfree).stop⟩

theorem meets_lookup (hfree : ¬Armed failing .findAccount) {a : Account}
    (hrow : findRow id s.rows = some a) (readings : List Instant) :
    (lookup id).Meets failing ⟨s, readings, none⟩ (.ok a) ⟨s, readings, none⟩ := by
  have hr : s.respond (.findAccount id) = .replied (.ok a) s := by
    rw [Store.respond, hrow]
    rfl
  exact (meets_ask (s := ⟨s, readings, none⟩) hfree hr).then (meets_pure a _)

end Workflow

theorem Command.Lands.opened_row {settings : Settings} {request : Request} {id : AccountId}
    {initial : Amount} {s s' : Store} {a : Account}
    (h : (Command.create request id initial).Lands settings s s' (.account a)) :
    findRow id s'.rows = some a := by
  cases h with
  | opening _ _ _ _ row => exact row

namespace Backend

variable {s : Store} {settings : Settings} {command : Command} {clock : Clock}

theorem serve_of_meets {n : Nat} {r : Except Failure Answer} {solo : Solo}
    (h : (command.workflow settings).Meets failing ⟨s, clock.shows n, none⟩ r solo) :
    serve ⟨s, { failing }⟩ ⟨settings, command, clock⟩ =
      (some (.ofResult r), ⟨solo.leave, { failing }⟩) := by
  obtain ⟨clock', hadvance⟩ := Program.advance_under ⟨0⟩ h
  have hsingle : Schedule.single settings command ⟨⟨s, { failing }⟩, clock⟩ = _ :=
    Schedule.single_eq hadvance
  rw [serve, hsingle]

theorem serve_opening (h : s.Ready) (failing : List Operation) (settings : Settings)
    (clock : Clock) (request : Request) (id : AccountId) (initial : Amount) :
    ∃ store, serve ⟨s, { failing }⟩ ⟨settings, .create request id initial, clock⟩ =
      (some (.ofResult ((passing (s.book.openingGates failing settings request id clock.next)
        (Account.opened id initial clock.next)).map .account)), ⟨store, { failing }⟩) := by
  obtain ⟨solo, hmeets⟩ := Workflow.meets_create failing settings request id initial clock.next
    h.quiet h.reached.kept
  exact ⟨_, serve_of_meets (n := 1) (hmeets.map Answer.account)⟩

/-- After any commands and under any armed operations, an opening fails at its first gate that is shut
and commits nothing. If all gates are open, the account is opened at the time that the clock showed,
and a lookup finds it. -/
theorem opening_by_gates (vs : List Visit) (failing : List Operation) (settings : Settings)
    (clock : Clock) (request : Request) (id : AccountId) (initial : Amount) :
    let s := (Store.serveAll {} vs).2
    let r := serve ⟨s, { failing }⟩ ⟨settings, .create request id initial, clock⟩
    let account := Account.opened id initial clock.next
    r.2.store.Quiet ∧
    match firstShut (s.book.openingGates failing settings request id clock.next) with
    | some e => r.1 = some (.failed (.rejected e)) ∧ s.Same r.2.store
    | none => r.1 = some (.answered (.account account)) ∧
        (Command.create request id initial).Lands settings s r.2.store (.account account) ∧
        ∀ settings' clock', (r.2.serve ⟨settings', .get id, clock'⟩).1 =
          some (.answered (.account account)) := by
  intro s r account
  have hready : s.Ready := Store.ready_empty.serveAll vs
  obtain ⟨store, hserve⟩ := serve_opening hready failing settings clock request id initial
  obtain ⟨o, ho, hafter, heffect⟩ := serve_cases (b := ⟨s, { failing }⟩) hready
    ⟨settings, .create request id initial, clock⟩
  refine ⟨hafter.quiet, ?_⟩
  split
  · rename_i e hshut
    rw [passing_of_shut hshut] at hserve
    have houtcome : r.1 = some (.failed (.rejected e)) := congrArg Prod.fst hserve
    refine ⟨houtcome, serve_same (b := ⟨s, { failing }⟩) hready fun answer hanswer => ?_⟩
    cases houtcome.symm.trans hanswer
  · rename_i hopen
    rw [passing_of_open hopen] at hserve
    have houtcome : r.1 = some (.answered (.account account)) := congrArg Prod.fst hserve
    refine ⟨houtcome, ?_⟩
    obtain rfl : o = .answered (.account account) := Option.some.inj (ho.symm.trans houtcome)
    rcases heffect with ⟨answer, hanswer, hlands⟩ | ⟨-, hwrites⟩
    · cases hanswer
      refine ⟨hlands, fun settings' clock' => ?_⟩
      have hfree : ¬Armed failing .findAccount := by
        intro harmed
        simp only [Book.openingGates, armedGate, List.cons_append, firstShut_gate] at hopen
        split_ifs at hopen
      have hafter : r.2 = ⟨store, { failing }⟩ := congrArg Prod.snd hserve
      have hrow : findRow id r.2.store.rows = some account := hlands.opened_row
      rw [hafter] at hrow ⊢
      have hlookup := (Workflow.meets_lookup hfree hrow []).map Answer.account
      rw [serve_of_meets (n := 0) hlookup]
      rfl
    · cases hwrites _ rfl

end Backend

end Bookkeeping
