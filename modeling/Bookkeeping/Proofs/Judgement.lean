import Bookkeeping.Proofs.Results
import Bookkeeping.Proofs.SoloRuns

/-! # What a command comes to

A command that has a quiet store to itself comes to what its book says: to the first of its checks
that fails, or to the posting that it adds. Nothing else decides, and a command that fails leaves the
book as it was.
-/
namespace Bookkeeping
open Bookkeeping.Time

namespace Book

/-- An entry of a transaction is recorded. -/
def Records (b : Book) (t : TransactionId) : Prop := ∃ d ∈ b.drafts, d.transaction = t

instance (b : Book) (t : TransactionId) : Decidable (b.Records t) :=
  inferInstanceAs (Decidable (∃ d ∈ b.drafts, d.transaction = t))

def require (b : Book) (id : AccountId) (missing : LedgerError) : Except Failure Account :=
  match b.row id with
  | some a => .ok a
  | none => .error (.rejected missing)

def nextNumber (b : Book) (id : AccountId) : Except Failure SequenceNumber :=
  match (b.lastNumber id).next? with
  | some n => .ok n
  | none => .error (.overflow .sequence)

def move (settings : Settings) (request : Request) (source destination : AccountId)
    (amount : Amount) (now : Instant) (b : Book) (a c : Account) : Except Failure Posting := do
  let debited ← a.debited amount now
  let credited ← c.credited amount now
  let n ← b.nextNumber source
  let m ← b.nextNumber destination
  return .movement settings request source destination amount debited credited n m

/-- A transfer passes all its checks up to that of the balance. -/
structure Admits (b : Book) (settings : Settings) (checked : Instant) (request : Request)
    (source destination : AccountId) (a c : Account) : Prop where
  fresh : Workflow.Fresh settings request checked
  unused : ¬b.Records request.transaction
  ne : source ≠ destination
  source_row : b.row source = some a
  destination_row : b.row destination = some c

/-- The book after what a command has come to. -/
def after (b : Book) : Except Failure Posting → Book
  | .ok p => b.post p
  | .error _ => b

theorem post_nil (b : Book) (answer : Answer) : b.post ⟨[], [], answer⟩ = b := by
  simp [post]

theorem nextNumber_eq_ok_iff {b : Book} {id : AccountId} {n : SequenceNumber} :
    b.nextNumber id = .ok n ↔ (b.lastNumber id).next? = some n := by
  unfold nextNumber
  cases (b.lastNumber id).next? <;> simp

theorem require_eq_ok_iff {b : Book} {id : AccountId} {missing : LedgerError} {a : Account} :
    b.require id missing = .ok a ↔ b.row id = some a := by
  unfold require
  cases b.row id <;> simp

theorem require_eq_error_iff {b : Book} {id : AccountId} {missing : LedgerError} {why : Failure} :
    b.require id missing = .error why ↔ b.row id = none ∧ why = .rejected missing := by
  unfold require
  cases b.row id <;> simp [eq_comm]

theorem move_eq_ok_iff {settings : Settings} {request : Request} {source destination : AccountId}
    {amount : Amount} {now : Instant} {b : Book} {a c : Account} {p : Posting} :
    b.move settings request source destination amount now a c = .ok p ↔
      ∃ debited, a.debited amount now = .ok debited ∧ ∃ credited, c.credited amount now = .ok credited ∧
        ∃ n, b.nextNumber source = .ok n ∧ ∃ m, b.nextNumber destination = .ok m ∧
          .movement settings request source destination amount debited credited n m = p := by
  simp only [move, bind_eq_ok_iff]
  simp only [pure, Except.pure, Except.ok.injEq]

end Book

namespace Command
open Workflow

/-- What a command adds to a book, or why it fails. The clock shows `checked` when the time of the
request is checked, and `now` when money is moved. -/
def judge (settings : Settings) (checked now : Instant) (b : Book) :
    Command → Except Failure Posting
  | .create request id initial =>
    if ¬Fresh settings request checked then
      .error (.rejected (.invalidRequestTime request.time checked settings.threshold.duration))
    else if b.row id ≠ none then .error (.rejected (.alreadyExists id))
    else if b.Records request.transaction then
      .error (.rejected (.alreadyRecorded request.transaction))
    else .ok (.opening settings request id initial checked)
  | .transfer request source destination amount =>
    if ¬Fresh settings request checked then
      .error (.rejected (.invalidRequestTime request.time checked settings.threshold.duration))
    else if b.Records request.transaction then
      .error (.rejected (.alreadyRecorded request.transaction))
    else if source = destination then .error (.rejected (.sameAccount source))
    else do
      let a ← b.require source (.sourceNotFound source)
      let c ← b.require destination (.destinationNotFound destination)
      b.move settings request source destination amount now a c
  | .get id => do
    let a ← b.require id (.accountNotFound id)
    return ⟨[], [], .account a⟩

variable {settings : Settings} {checked now : Instant} {b : Book} {request : Request}
  {id source destination : AccountId} {initial amount : Amount}

theorem judge_create_cases :
    (∃ e, judge settings checked now b (.create request id initial) = .error (.rejected e)) ∨
    (Fresh settings request checked ∧ b.row id = none ∧ ¬b.Records request.transaction ∧
      judge settings checked now b (.create request id initial) =
        .ok (.opening settings request id initial checked)) := by
  rw [judge]
  split
  · exact .inl ⟨_, rfl⟩
  split
  · exact .inl ⟨_, rfl⟩
  split
  · exact .inl ⟨_, rfl⟩
  · rename_i hfresh hrow hunused
    exact .inr ⟨not_not.mp hfresh, not_not.mp hrow, hunused, rfl⟩

theorem judge_transfer_cases :
    (∃ e, judge settings checked now b (.transfer request source destination amount) =
      .error (.rejected e)) ∨
    ∃ a c, b.Admits settings checked request source destination a c ∧
      judge settings checked now b (.transfer request source destination amount) =
        b.move settings request source destination amount now a c := by
  rw [judge]
  split
  · exact .inl ⟨_, rfl⟩
  split
  · exact .inl ⟨_, rfl⟩
  split
  · exact .inl ⟨_, rfl⟩
  rename_i hfresh hunused hne
  rw [Book.require, Book.require]
  cases ha : b.row source with
  | none => exact .inl ⟨_, rfl⟩
  | some a =>
    cases hc : b.row destination with
    | none => exact .inl ⟨_, rfl⟩
    | some c => exact .inr ⟨a, c, ⟨not_not.mp hfresh, hunused, hne, ha, hc⟩, rfl⟩

end Command

theorem Book.Admits.judge_eq {settings : Settings} {checked now : Instant} {b : Book}
    {request : Request} {source destination : AccountId} {amount : Amount} {a c : Account}
    (h : b.Admits settings checked request source destination a c) :
    Command.judge settings checked now b (.transfer request source destination amount) =
      b.move settings request source destination amount now a c := by
  rw [Command.judge, if_neg (not_not.mpr h.fresh), if_neg h.unused, if_neg h.ne,
    require_eq_ok_iff.mpr h.source_row, require_eq_ok_iff.mpr h.destination_row]
  rfl

/-! ## Readings of the clock -/

namespace Program

variable {α : Type} {a : α} {s s' : Solo}

theorem answer_call_iff {c : Call} {next : c.Reply → Program α} :
    (call c next).answer Solo.reply Solo.clock s = some (a, s') ↔
      ∃ r store, s.store.respond c = .replied r store ∧
        (next r).answer Solo.reply Solo.clock
          { s with store, unit := unitAfter s.unit c r } = some (a, s') := by
  constructor
  · intro h
    obtain ⟨⟨r, s₁⟩, hr, hnext⟩ := Option.bind_eq_some_iff.mp h
    unfold Solo.reply at hr
    split at hr
    · rename_i store hreply
      cases hr
      exact ⟨r, store, hreply, hnext⟩
    · cases hr
  · rintro ⟨r, store, hreply, hnext⟩
    refine Option.bind_eq_some_iff.mpr ⟨(r, _), ?_, hnext⟩
    rw [Solo.reply, hreply]

theorem answer_clock_iff {next : Instant → Program α} :
    (clock next).answer Solo.reply Solo.clock s = some (a, s') ↔
      ∃ t rest, s.readings = t :: rest ∧
        (next t).answer Solo.reply Solo.clock { s with readings := rest } = some (a, s') := by
  constructor
  · intro h
    obtain ⟨⟨t, s₁⟩, ht, hnext⟩ := Option.bind_eq_some_iff.mp h
    unfold Solo.clock at ht
    split at ht
    · cases ht
    · rename_i rest hreadings
      cases ht
      exact ⟨t, rest, hreadings, hnext⟩
  · rintro ⟨t, rest, hreadings, hnext⟩
    refine Option.bind_eq_some_iff.mpr ⟨(t, _), ?_, hnext⟩
    rw [Solo.clock, hreadings]

theorem answer_more {p : Program α} (h : p.answer Solo.reply Solo.clock s = some (a, s'))
    (more : List Instant) :
    p.answer Solo.reply Solo.clock { s with readings := s.readings ++ more } =
      some (a, { s' with readings := s'.readings ++ more }) := by
  induction p generalizing s with
  | done b =>
    cases h
    rfl
  | call c next ih =>
    obtain ⟨r, store, hreply, hnext⟩ := answer_call_iff.mp h
    exact answer_call_iff.mpr ⟨r, store, hreply, ih r hnext⟩
  | clock next ih =>
    obtain ⟨t, rest, hreadings, hnext⟩ := answer_clock_iff.mp h
    refine answer_clock_iff.mpr ⟨t, rest ++ more, ?_, ih t hnext⟩
    rw [hreadings, List.cons_append]

/-- The readings that a program makes are all that it needs. -/
theorem answer_used {p : Program α} (h : p.answer Solo.reply Solo.clock s = some (a, s')) :
    ∃ used, s.readings = used ++ s'.readings ∧
      p.answer Solo.reply Solo.clock { s with readings := used } =
        some (a, { s' with readings := [] }) := by
  induction p generalizing s with
  | done b =>
    cases h
    exact ⟨[], rfl, rfl⟩
  | call c next ih =>
    obtain ⟨r, store, hreply, hnext⟩ := answer_call_iff.mp h
    obtain ⟨used, hused, hanswer⟩ := ih r hnext
    exact ⟨used, hused, answer_call_iff.mpr ⟨r, store, hreply, hanswer⟩⟩
  | clock next ih =>
    obtain ⟨t, rest, hreadings, hnext⟩ := answer_clock_iff.mp h
    obtain ⟨used, hused, hanswer⟩ := ih t hnext
    refine ⟨t :: used, ?_, answer_clock_iff.mpr ⟨t, used, rfl, hanswer⟩⟩
    rw [hreadings, List.cons_append]
    exact congrArg (t :: ·) hused

end Program

/-! ## Workflows that end early -/

namespace Workflow

variable {α β γ : Type} {w : Workflow α} {f : α → Workflow β} {g : β → Workflow γ} {a : α} {b : β}
  {s s' s'' : Solo} {why : Failure}

def Comes (w : Workflow α) (s : Solo) (r : Except Failure α) (s' : Solo) : Prop :=
  w.program.answer Solo.reply Solo.clock s = some (r, s')

theorem Gives.comes (h : w.Gives s a s') : w.Comes s (.ok a) s' := h

theorem Gives.then {r : Except Failure β} (h : w.Gives s a s') (hf : (f a).Comes s' r s'') :
    (w >>= f).Comes s r s'' := by
  rw [Comes, program_bind, Program.answer_bind]
  exact Option.bind_eq_some_iff.mpr ⟨_, h, hf⟩

theorem Gives.then_then {r : Except Failure γ} (h : (w >>= f).Gives s b s')
    (hg : (g b).Comes s' r s'') : (w >>= fun a => f a >>= g).Comes s r s'' := by
  rw [← bind_assoc]
  exact h.then hg

theorem Comes.stop (h : w.Comes s (.error why) s') : (w >>= f).Comes s (.error why) s' := by
  rw [Comes, program_bind, Program.answer_bind]
  exact Option.bind_eq_some_iff.mpr ⟨_, h, rfl⟩

theorem Comes.stop_then (h : (w >>= f).Comes s (.error why) s') :
    (w >>= fun a => f a >>= g).Comes s (.error why) s' := by
  rw [← bind_assoc]
  exact h.stop

theorem comes_reject (e : LedgerError) (s : Solo) :
    (reject e : Workflow α).Comes s (.error (.rejected e)) s := rfl

theorem comes_ofResult (r : Except Failure α) (s : Solo) : (ofResult r).Comes s r s := rfl

theorem Comes.map {r : Except Failure α} (f : α → β) (h : w.Comes s r s') :
    (f <$> w).Comes s (r.map f) s' := by
  rw [map_eq_pure_bind]
  cases r with
  | error why => exact h.stop
  | ok a => exact Gives.then h (Gives.pure (f a) s')

end Workflow

/-- A program that has ended leaves a quiet store with this book. -/
structure Solo.Closes (s : Solo) (b : Book) : Prop where
  quiet : s.leave.Quiet
  book : s.leave.book = b

namespace Store

variable {s base : Store} {u : UnitId} {w : WorkUnit} {t : TransactionId}

theorem Quiet.closes (h : s.Quiet) (readings : List Instant) :
    Solo.Closes ⟨s, readings, none⟩ s.book := ⟨h, rfl⟩

theorem closes_holding (hw : base.waiting = []) (readings : List Instant) :
    Solo.Closes ⟨base.holding u w, readings, some u⟩ base.book := by
  have hleave : Solo.leave ⟨base.holding u w, readings, some u⟩ = { base with units := [] } :=
    close_holding hw
  constructor
  · rw [hleave]
    exact ⟨rfl, hw⟩
  · rw [hleave]
    rfl

theorem exists_cons_entriesOf (h : s.book.Records t) :
    ∃ e rest, entriesOf t s.entries = e :: rest := by
  obtain ⟨d, hd, rfl⟩ := h
  obtain ⟨e, he, rfl⟩ := List.mem_map.mp hd
  have hmem : e ∈ entriesOf e.transaction s.entries := by
    simpa [entriesOf] using he
  exact List.exists_cons_of_ne_nil (List.ne_nil_of_mem hmem)

theorem entriesOf_of_not_records (h : ¬s.book.Records t) : entriesOf t s.entries = [] :=
  entriesOf_eq_nil fun d hd ht => h ⟨d, hd, ht⟩

end Store

namespace Workflow

variable {settings : Settings} {request : Request} {s base : Store} {checked now : Instant}
  {readings : List Instant} {unit : Option UnitId} {u : UnitId} {w : WorkUnit} {why : Failure}

theorem comes_checkFresh (h : ¬Fresh settings request checked) :
    (checkFresh settings request).Comes ⟨s, checked :: readings, unit⟩
      (.error (.rejected (.invalidRequestTime request.time checked settings.threshold.duration)))
      ⟨s, readings, unit⟩ := by
  refine Gives.then (.now rfl) ?_
  rw [if_neg h]
  exact comes_reject _ _

theorem comes_checkUnused {t : TransactionId} (step : Step) (h : s.book.Records t) :
    Comes (do checkUnused t step (← ask (.findByTransaction t))) ⟨s, readings, unit⟩
      (.error (.rejected (.alreadyRecorded t))) ⟨s, readings, unit⟩ := by
  obtain ⟨e, rest, hes⟩ := Store.exists_cons_entriesOf h
  have hr : s.respond (.findByTransaction t) = .replied (.ok (e :: rest)) s := by
    rw [Store.respond, hes]
  exact Gives.then (.ask hr) (comes_reject _ _)

/-! ### Lookups -/

theorem comes_lookup (id : AccountId) :
    (lookup id).Comes ⟨s, readings, unit⟩ (s.book.require id (.accountNotFound id))
      ⟨s, readings, unit⟩ := by
  have hr : s.respond (.findAccount id) = .replied (foundOr "account" (s.book.row id)) s := rfl
  refine Gives.then (.ask hr) ?_
  unfold Book.require
  cases s.book.row id with
  | none => exact comes_reject _ _
  | some a => rfl

/-! ### Openings that fail -/

theorem comes_create {id : AccountId} {initial : Amount}
    (h : Command.judge settings checked now s.book (.create request id initial) = .error why) :
    (create settings request id initial).Comes ⟨s, checked :: readings, unit⟩ (.error why)
      ⟨s, readings, unit⟩ := by
  have hr : s.respond (.findAccount id) = .replied (foundOr "account" (s.book.row id)) s := rfl
  rw [Command.judge] at h
  split at h
  · rename_i hfresh
    cases h
    exact (comes_checkFresh hfresh).stop
  · rename_i hfresh
    refine Gives.then (gives_checkFresh rfl (not_not.mp hfresh)) ?_
    refine Gives.then (.ask hr) ?_
    split at h
    · rename_i hrow
      cases h
      obtain ⟨a, ha⟩ := Option.ne_none_iff_exists'.mp hrow
      rw [ha]
      exact (comes_reject _ _).stop
    · rename_i hrow
      rw [not_not.mp hrow]
      refine Gives.then (.pure () _) ?_
      split at h
      · rename_i hrecorded
        cases h
        exact (comes_checkUnused .checkingTransaction hrecorded).stop_then
      · cases h

/-! ### Transfers that fail -/

/-- What is left of a transfer once both rows are locked and its transaction is known to be new. -/
def moveLocked (settings : Settings) (request : Request) (u : UnitId)
    (source destination : AccountId) (amount : Amount) (a c : Account) : Workflow Unit := do
  let now ← Workflow.now
  let debited ← ofResult (a.debited amount now)
  let credited ← ofResult (c.credited amount now)
  let (debits, credits) ← transferBatches settings request u source destination amount
  writeTransfer u debits credits debited credited

variable {source destination : AccountId} {amount : Amount} {a c : Account}

theorem comes_record {id : AccountId} (h : base.book.nextNumber id = .error why) (e : Event)
    (s : Solo) :
    Comes (ofResult ((EntryBatch.record e).update (.startingAt id request.transaction settings.version
      (base.book.lastNumber id)))) s (.error why) s := by
  unfold Book.nextNumber at h
  split at h
  · cases h
  · rename_i hnext
    cases h
    have hrecord : (EntryBatch.record e).update (.startingAt id request.transaction settings.version
        (base.book.lastNumber id)) = .error (.overflow .sequence) := by
      simp only [EntryBatch.update_record, EntryBatch.startingAt, hnext]
    rw [hrecord]
    exact comes_ofResult _ _

theorem comes_transferBatches (hw : w.entries = [])
    (h : base.book.nextNumber source = .error why ∨ ∃ n, base.book.nextNumber source = .ok n ∧
      base.book.nextNumber destination = .error why) :
    (transferBatches settings request u source destination amount).Comes
      ⟨base.holding u w, readings, some u⟩ (.error why) ⟨base.holding u w, readings, some u⟩ := by
  refine Gives.then_then (gives_loadIn .loadingSource hw) ?_
  refine Gives.then_then (gives_loadIn .loadingDestination hw) ?_
  rcases h with hn | ⟨n, hn, hm⟩
  · exact (comes_record hn _ _).stop
  · obtain ⟨b, hb, -⟩ := gives_record settings request ⟨base.holding u w, readings, some u⟩ source
      (.debited destination amount) (Book.nextNumber_eq_ok_iff.mp hn)
    exact Gives.then hb (comes_record hm _ _).stop

theorem comes_moveLocked (hw : w.entries = [])
    (h : base.book.move settings request source destination amount now a c = .error why) :
    (moveLocked settings request u source destination amount a c).Comes
      ⟨base.holding u w, now :: readings, some u⟩ (.error why)
      ⟨base.holding u w, readings, some u⟩ := by
  refine Gives.then (.now rfl) ?_
  rcases bind_eq_error_iff.mp h with hdebit | ⟨debited, hdebit, h⟩
  · rw [hdebit]
    exact (comes_ofResult _ _).stop
  rw [hdebit]
  refine Gives.then (.pure debited _) ?_
  rcases bind_eq_error_iff.mp h with hcredit | ⟨credited, hcredit, h⟩
  · rw [hcredit]
    exact (comes_ofResult _ _).stop
  rw [hcredit]
  refine Gives.then (.pure credited _) (comes_transferBatches hw ?_).stop
  rcases bind_eq_error_iff.mp h with hn | ⟨n, hn, h⟩
  · exact .inl hn
  rcases bind_eq_error_iff.mp h with hm | ⟨m, hm, h⟩
  · exact .inr ⟨n, hn, hm⟩
  · cases h

/-- A transfer whose transaction is recorded opens no unit of work. -/
theorem comes_transfer_recorded (hfresh : Fresh settings request checked)
    (h : s.book.Records request.transaction) :
    (transfer settings request source destination amount).Comes ⟨s, checked :: readings, unit⟩
      (.error (.rejected (.alreadyRecorded request.transaction))) ⟨s, readings, unit⟩ :=
  Gives.then (gives_checkFresh rfl hfresh) (comes_checkUnused .checkingTransaction h).stop_then

theorem comes_transfer (hq : s.Quiet)
    (h : Command.judge settings checked now s.book (.transfer request source destination amount) =
      .error why) :
    ∃ solo, (transfer settings request source destination amount).Comes ⟨s, [checked, now], none⟩
      (.error why) solo ∧ solo.Closes s.book := by
  rw [Command.judge] at h
  split at h
  · rename_i hfresh
    cases h
    exact ⟨_, (comes_checkFresh hfresh).stop, hq.closes _⟩
  rename_i hfresh
  have hfirst := gives_checkFresh (s := ⟨s, [checked, now], none⟩) rfl (not_not.mp hfresh)
  split at h
  · rename_i hrecorded
    cases h
    exact ⟨_, comes_transfer_recorded (not_not.mp hfresh) hrecorded, hq.closes _⟩
  rename_i hunused
  have hunused := Store.entriesOf_of_not_records hunused
  have hsecond := gives_checkUnused (s := ⟨s, [now], none⟩) .checkingTransaction hunused
  split at h
  · rename_i hsame
    cases h
    refine ⟨⟨s, [now], none⟩, Gives.then hfirst (Gives.then_then hsecond ?_), hq.closes _⟩
    rw [if_pos hsame]
    exact (comes_reject _ _).stop
  rename_i hne
  -- from here on a unit of work is open, and the transfer fails in it
  let base : Store := { s with opened := s.opened + 1 }
  have hwaiting : base.waiting = [] := hq.2
  obtain ⟨held, hlock⟩ := gives_lockPair base ⟨s.opened⟩ [now] hne
  have hclose (readings : List Instant) :
      Solo.Closes ⟨base.holding ⟨s.opened⟩ { held }, readings, some ⟨s.opened⟩⟩ s.book :=
    Store.closes_holding hwaiting readings
  suffices hrest : ∃ readings, Comes (do
      let sourceRow ← requireRow (.sourceNotFound source) (s.book.row source)
      let destinationRow ← requireRow (.destinationNotFound destination) (s.book.row destination)
      checkUnused request.transaction .recheckingTransaction
        (← ask (.findByTransactionIn ⟨s.opened⟩ request.transaction))
      moveLocked settings request ⟨s.opened⟩ source destination amount sourceRow destinationRow)
      ⟨base.holding ⟨s.opened⟩ { held }, [now], some ⟨s.opened⟩⟩ (.error why)
      ⟨base.holding ⟨s.opened⟩ { held }, readings, some ⟨s.opened⟩⟩ by
    obtain ⟨readings, hrest⟩ := hrest
    refine ⟨_, Gives.then hfirst (Gives.then_then hsecond ?_), hclose readings⟩
    rw [if_neg hne]
    exact Gives.then_then (gives_openUnit .openingUnit hq) (Gives.then hlock hrest)
  rcases bind_eq_error_iff.mp h with hsource | ⟨a, hsource, h⟩
  · obtain ⟨hnone, rfl⟩ := Book.require_eq_error_iff.mp hsource
    rw [hnone]
    exact ⟨_, (comes_reject _ _).stop⟩
  rw [Book.require_eq_ok_iff.mp hsource]
  rcases bind_eq_error_iff.mp h with hdestination | ⟨c, hdestination, hmove⟩
  · obtain ⟨hnone, rfl⟩ := Book.require_eq_error_iff.mp hdestination
    rw [hnone]
    exact ⟨_, Gives.then (.pure a _) (comes_reject _ _).stop⟩
  rw [Book.require_eq_ok_iff.mp hdestination]
  refine ⟨[], Gives.then (.pure a _) (Gives.then (.pure c _) ?_)⟩
  refine Gives.then_then (gives_recheckUnused .recheckingTransaction rfl hunused) ?_
  have hmove : base.book.move settings request source destination amount now a c = .error why :=
    hmove
  exact comes_moveLocked rfl hmove

end Workflow

/-! ## Turns -/

namespace Turn

variable {settings : Settings} {command : Command} {readings : List Instant} {s s' : Store}
  {o : Outcome}

theorem play_eq_some_iff : Turn.play ⟨settings, command, readings⟩ s = some (o, s') ↔
    ∃ r solo, (command.workflow settings).Comes ⟨s, readings, none⟩ r solo ∧ solo.readings = [] ∧
      o = .ofResult r ∧ s' = solo.leave := by
  unfold play
  constructor
  · intro h
    split at h
    · rename_i r solo hanswer
      split at h
      · rename_i hreadings
        cases h
        exact ⟨r, solo, hanswer, List.isEmpty_iff.mp hreadings, rfl, rfl⟩
      · cases h
    · cases h
  · rintro ⟨r, solo, hcomes, hreadings, rfl, rfl⟩
    have hanswer : (command.program settings).answer Solo.reply Solo.clock ⟨s, readings, none⟩ =
        some (r, solo) := hcomes
    simp only [hanswer, hreadings, List.isEmpty_nil, if_true]

end Turn

namespace Command

variable {settings : Settings} {command : Command} {checked now : Instant} {s s' : Store}
  {b : Book} {p : Posting}

theorem posts_of_judge (hk : b.Kept) (h : command.judge settings checked now b = .ok p) :
    (∃ readings rest, readings ++ rest = [checked, now] ∧
      command.Posts settings readings b p ∧
      ∀ t, command.transaction? = some t → ¬b.Records t) ∨
    ∃ id a, command = .get id ∧ b.row id = some a ∧ p = ⟨[], [], .account a⟩ := by
  cases command with
  | create request id initial =>
    rcases judge_create_cases with ⟨e, hfail⟩ | ⟨hfresh, hrow, hunused, hjudge⟩
    · cases h.symm.trans hfail
    cases h.symm.trans hjudge
    refine .inl ⟨[checked], [now], rfl, .opening hfresh hrow ((hk.backed id).mp hrow), ?_⟩
    rintro t ht
    cases ht
    exact hunused
  | transfer request source destination amount =>
    rcases judge_transfer_cases with ⟨e, hfail⟩ | ⟨a, c, hadmits, hjudge⟩
    · cases h.symm.trans hfail
    obtain ⟨debited, hdebit, credited, hcredit, n, hn, m, hm, rfl⟩ :=
      Book.move_eq_ok_iff.mp (hjudge.symm.trans h)
    refine .inl ⟨[checked, now], [], rfl,
      .movement hadmits.fresh hadmits.ne hadmits.source_row hadmits.destination_row hdebit hcredit
        (Book.nextNumber_eq_ok_iff.mp hn) (Book.nextNumber_eq_ok_iff.mp hm), ?_⟩
    rintro t ht
    cases ht
    exact hadmits.unused
  | get id =>
    obtain ⟨a, hrow, h⟩ := bind_eq_ok_iff.mp h
    cases h
    exact .inr ⟨id, a, rfl, Book.require_eq_ok_iff.mp hrow, rfl⟩

theorem reached_after (h : b.Reached) (settings : Settings) (command : Command)
    (checked now : Instant) : (b.after (command.judge settings checked now b)).Reached := by
  cases hjudge : command.judge settings checked now b with
  | error why => exact h
  | ok p =>
    rcases posts_of_judge h.kept hjudge with ⟨readings, rest, -, hposts, -⟩ | ⟨id, a, -, -, rfl⟩
    · exact h.post hposts
    · rw [Book.after, Book.post_nil]
      exact h

theorem comes_get (id : AccountId) (settings : Settings) (s : Store) (checked now : Instant) :
    ((Command.get id).workflow settings).Comes ⟨s, [checked, now], none⟩
      (((Command.get id).judge settings checked now s.book).map (·.answer))
      ⟨s, [checked, now], none⟩ ∧
    s.book.after ((Command.get id).judge settings checked now s.book) = s.book := by
  have hcomes : (Workflow.lookup id).Comes ⟨s, [checked, now], none⟩
      (s.book.require id (.accountNotFound id)) ⟨s, [checked, now], none⟩ :=
    Workflow.comes_lookup id
  have hlookup := hcomes.map Answer.account
  cases hrow : s.book.require id (.accountNotFound id) with
  | error why =>
    have hjudge : (Command.get id).judge settings checked now s.book = .error why := by
      rw [judge, hrow]
      rfl
    rw [hrow] at hlookup
    rw [hjudge]
    exact ⟨hlookup, rfl⟩
  | ok a =>
    have hjudge : (Command.get id).judge settings checked now s.book = .ok ⟨[], [], .account a⟩ := by
      rw [judge, hrow]
      rfl
    rw [hrow] at hlookup
    rw [hjudge]
    exact ⟨hlookup, Book.post_nil _ _⟩

/-- A command that has a quiet store to itself comes to what the book says. -/
theorem comes_judge (command : Command) (settings : Settings) (checked now : Instant)
    (hq : s.Quiet) (hk : s.book.Kept) :
    ∃ solo, (command.workflow settings).Comes ⟨s, [checked, now], none⟩
        ((command.judge settings checked now s.book).map (·.answer)) solo ∧
      solo.Closes (s.book.after (command.judge settings checked now s.book)) := by
  have hget (id : AccountId) := comes_get id settings s checked now
  cases h : command.judge settings checked now s.book with
  | error why =>
    cases command with
    | create request id initial => exact ⟨_, (Workflow.comes_create h).map _, hq.closes _⟩
    | transfer request source destination amount =>
      obtain ⟨solo, hcomes, hcloses⟩ := Workflow.comes_transfer hq h
      exact ⟨solo, hcomes.map _, hcloses⟩
    | get id =>
      obtain ⟨hcomes, -⟩ := hget id
      rw [h] at hcomes
      exact ⟨_, hcomes, hq.closes _⟩
  | ok p =>
    rcases posts_of_judge hk h with ⟨readings, rest, hreadings, hposts, hunused⟩ | ⟨id, a, rfl, -, -⟩
    · obtain ⟨s', hplay, hquiet, hbook⟩ :=
        hposts.play hq hk fun t ht d hd hdt => hunused t ht ⟨d, hd, hdt⟩
      obtain ⟨r, solo, hcomes, hempty, ho, rfl⟩ := Turn.play_eq_some_iff.mp hplay
      have hmore := Program.answer_more hcomes rest
      have hr : r = .ok p.answer := by
        cases r with
        | error why => cases ho
        | ok a => cases ho; rfl
      rw [hreadings, hr] at hmore
      exact ⟨_, hmore, hquiet, hbook⟩
    · obtain ⟨hcomes, hafter⟩ := hget id
      rw [h] at hcomes hafter
      rw [hafter]
      exact ⟨_, hcomes, hq.closes _⟩

end Command

namespace Turn

variable {settings : Settings} {command : Command} {readings : List Instant} {s s' : Store}
  {o : Outcome}

/-- Whatever the clock is going to show, a command can have its turn on a quiet store. -/
theorem exists_play (settings : Settings) (command : Command) (checked now : Instant)
    (hq : s.Quiet) (hk : s.book.Kept) :
    ∃ readings s', readings <+: [checked, now] ∧
      Turn.play ⟨settings, command, readings⟩ s =
        some (.ofResult ((command.judge settings checked now s.book).map (·.answer)), s') ∧
      s'.Quiet ∧ s'.book = s.book.after (command.judge settings checked now s.book) := by
  obtain ⟨solo, hcomes, hquiet, hbook⟩ := command.comes_judge settings checked now hq hk
  obtain ⟨used, hused, hanswer⟩ := Program.answer_used hcomes
  refine ⟨used, _, ⟨solo.readings, hused.symm⟩, play_eq_some_iff.mpr ⟨_, _, hanswer, rfl, rfl, rfl⟩,
    ?_, ?_⟩
  · exact hquiet
  · exact hbook

end Turn

end Bookkeeping
