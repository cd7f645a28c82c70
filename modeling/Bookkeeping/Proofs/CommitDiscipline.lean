import Bookkeeping.Proofs.Openings
import Bookkeeping.Proofs.ProgramRuns

/-! # The discipline of commits

Over any store a command makes its calls in one order: it looks up what it needs, opens its one unit of
work, locks before it reads again, reads before it writes, and commits last. It stops at the first write
that is refused, so that a commit comes after writes that were all accepted, and a command that writes
succeeds just if its commit does.
-/
namespace Bookkeeping
open Bookkeeping.Time

def Call.writes : Call → Bool
  | .append .. | .upsertAccount .. => true
  | _ => false

namespace Request

def openingCalls (settings : Settings) (request : Request) (id : AccountId) (initial : Amount)
    (u : UnitId) (now : Instant) : List Call :=
  [.findAccount id, .findByTransaction request.transaction, .findLast id, .openUnit,
    .append u (request.openingDrafts settings id initial),
    .upsertAccount u (.opened id initial now)]

def transferCalls (settings : Settings) (request : Request) (source destination : AccountId)
    (amount : Amount) (u : UnitId) (n m : SequenceNumber) (debited credited : Account) : List Call :=
  [.findByTransaction request.transaction, .openUnit,
    .lockAccount u (if source < destination then source else destination),
    .lockAccount u (if source < destination then destination else source),
    .findByTransactionIn u request.transaction, .findLastIn u source, .findLastIn u destination,
    .append u [request.draft settings source n (.debited destination amount)],
    .append u [request.draft settings destination m (.credited source amount)],
    .upsertAccount u debited, .upsertAccount u credited]

end Request

/-- The rows that a transfer writes are those that it was given with its locks, with the amount taken out
of the one and put into the other. -/
def Moves (h : List Observation) (u : UnitId) (source destination : AccountId) (amount : Amount)
    (debited credited : Account) : Prop :=
  ∃ a c now, .replied (.lockAccount u source) (.ok a) ∈ h ∧
    .replied (.lockAccount u destination) (.ok c) ∈ h ∧ .read now ∈ h ∧
    a.debited amount now = .ok debited ∧ c.credited amount now = .ok credited

def Accepted (h : List Observation) : Prop :=
  ∀ c r, .replied c r ∈ h → c.writes = true → ∃ a, r = .ok a

namespace Command

/-- Calls in the order of a command, or the first of them. -/
def InOrder (settings : Settings) (command : Command) (h : List Observation) (made : List Call) :
    Prop :=
  match command with
  | .create request id initial =>
    ∃ u now, made <+: request.openingCalls settings id initial u now ++ [.commit u]
  | .transfer request source destination amount =>
    ∃ u n m debited credited,
      made <+: request.transferCalls settings source destination amount u n m debited credited ++
        [.commit u] ∧
      ((∃ a, .upsertAccount u a ∈ made) → Moves h u source destination amount debited credited)
  | .get id => made <+: [.findAccount id]

/-- Calls in order, in no unit of work but the one that was opened. A commit comes after writes that were
all accepted. -/
structure Disciplined (settings : Settings) (command : Command) (h : List Observation)
    (made : List Call) : Prop where
  order : command.InOrder settings h made
  unit : ∀ c ∈ made, ∀ u, c.unit? = some u → .replied .openUnit (.ok u) ∈ h
  accepted : ∀ u, .commit u ∈ made → Accepted h

variable {settings : Settings} {command : Command} {h h' : List Observation} {made made' : List Call}

theorem InOrder.mono (ho : command.InOrder settings h made) (hh : h ⊆ h') :
    command.InOrder settings h' made := by
  cases command with
  | create request id initial => exact ho
  | transfer request source destination amount =>
    obtain ⟨u, n, m, debited, credited, hmade, hmoves⟩ := ho
    refine ⟨u, n, m, debited, credited, hmade, fun hwritten => ?_⟩
    obtain ⟨a, c, now, ha, hc, hnow, hdebit, hcredit⟩ := hmoves hwritten
    exact ⟨a, c, now, hh ha, hh hc, hh hnow, hdebit, hcredit⟩
  | get id => exact ho

theorem eq_concat_of_prefix {before : List Call} {u v : UnitId} (hbefore : ∀ w, .commit w ∉ before)
    (hp : made <+: before ++ [.commit u]) (hv : .commit v ∈ made) :
    made = before ++ [.commit v] := by
  rcases List.prefix_concat_iff.mp hp with rfl | hp
  · rcases List.mem_append.mp hv with hv | hv
    · exact absurd hv (hbefore v)
    · rw [List.mem_singleton.mp hv]
  · exact absurd (hp.subset hv) (hbefore v)

theorem InOrder.eq_concat_commit (ho : command.InOrder settings h made) {v : UnitId}
    (hv : .commit v ∈ made) : ∃ before, made = before ++ [.commit v] ∧ ∀ w, .commit w ∉ before := by
  cases command with
  | create request id initial =>
    obtain ⟨u, now, hmade⟩ := ho
    have hbefore (w : UnitId) : .commit w ∉ request.openingCalls settings id initial u now := by
      simp [Request.openingCalls]
    exact ⟨_, eq_concat_of_prefix hbefore hmade hv, hbefore⟩
  | transfer request source destination amount =>
    obtain ⟨u, n, m, debited, credited, hmade, -⟩ := ho
    have hbefore (w : UnitId) : .commit w ∉ request.transferCalls settings source destination amount u
        n m debited credited := by
      simp [Request.transferCalls]
    exact ⟨_, eq_concat_of_prefix hbefore hmade hv, hbefore⟩
  | get id =>
    have hmem := ho.subset hv
    simp at hmem

end Command

theorem Observation.exists_of_isCommit {o : Observation} (h : o.isCommit = true) :
    ∃ u, o = .replied (.commit u) (.ok ()) := by
  cases o with
  | read t => cases h
  | replied c r =>
    cases c with
    | commit u =>
      cases r with
      | ok a => exact ⟨u, rfl⟩
      | error e => cases h
    | _ => cases h

theorem Accepted.concat {h : List Observation} (ha : Accepted h) {o : Observation}
    (ho : ∀ c r, o = .replied c r → c.writes = true → ∃ a, r = .ok a) : Accepted (h ++ [o]) := by
  intro c r hr hc
  rcases List.mem_append.mp hr with hr | hr
  · exact ha c r hr hc
  · exact ho c r (List.mem_singleton.mp hr).symm hc

/-- A call is made in order, and only as long as all writes were accepted. -/
def disciplineRule (settings : Settings) (command : Command) : Rule := fun h c =>
  command.Disciplined settings h (answered h ++ [c]) ∧ Accepted h

namespace Command.Disciplined

variable {settings : Settings} {command : Command} {h : List Observation}

theorem read {made : List Call} (hd : command.Disciplined settings h made) (t : Instant) :
    command.Disciplined settings (h ++ [.read t]) made where
  order := hd.order.mono (List.subset_append_left _ _)
  unit c hc u hu := List.mem_append_left _ (hd.unit c hc u hu)
  accepted u hu := (hd.accepted u hu).concat fun _ _ he => by cases he

theorem replied {c : Call} (hd : command.Disciplined settings h (answered h ++ [c])) (r : c.Reply) :
    command.Disciplined settings (h ++ [.replied c r]) (answered h ++ [c]) where
  order := hd.order.mono (List.subset_append_left _ _)
  unit c' hc u hu := List.mem_append_left _ (hd.unit c' hc u hu)
  accepted u hu := by
    -- the call is the commit itself, and no write
    obtain ⟨before, he, -⟩ := hd.order.eq_concat_commit hu
    cases List.append_inj_right' he rfl
    exact (hd.accepted u hu).concat fun c' r' he hc => by cases he; cases hc

end Command.Disciplined

theorem Program.Reaches.disciplined {α : Type} {settings : Settings} {command : Command}
    {p q : Program α} {h h₀ : List Observation} {Q : List Observation → α → Prop}
    (hr : p.Reaches h q) (hp : p.Obeys (disciplineRule settings command).contract Q h₀)
    (h₀d : command.Disciplined settings h₀ (answered h₀)) :
    command.Disciplined settings (h₀ ++ h) (q.made (h₀ ++ h)) := by
  -- along the run, for anything told before it; the rule speaks of the call that is about to be made
  induction hr generalizing h₀ with
  | start p =>
    rw [List.append_nil]
    cases p with
    | done a => simpa [made, pending] using h₀d
    | call c next => exact hp.1.1
    | clock next => simpa [made, pending] using h₀d
  | replied r _ ih =>
    rw [List.append_cons]
    refine ih (hp.2 r) ?_
    rw [answered_replied]
    exact hp.1.1.replied r
  | read t _ ih =>
    rw [List.append_cons]
    refine ih (hp t) ?_
    rw [answered_read]
    exact h₀d.read t

/-! ## Where a workflow is -/

/-- A workflow has made these calls, was told at least what it knows, and had all its writes accepted. -/
structure Stage (h : List Observation) (made : List Call) (known : List Observation) : Prop where
  calls : answered h = made
  seen : known ⊆ h
  unit : ∀ c ∈ made, ∀ u, c.unit? = some u → .replied .openUnit (.ok u) ∈ known
  accepted : Accepted h

namespace Stage

variable {h known : List Observation} {made : List Call}

theorem nil : Stage [] [] [] where
  calls := rfl
  seen := List.Subset.refl _
  unit _ hc := absurd hc List.not_mem_nil
  accepted _ _ hr := absurd hr List.not_mem_nil

theorem learn (hs : Stage h made known) {o : Observation} (ho : o ∈ h) :
    Stage h made (o :: known) where
  calls := hs.calls
  seen := List.cons_subset.mpr ⟨ho, hs.seen⟩
  unit c hc u hu := List.mem_cons_of_mem _ (hs.unit c hc u hu)
  accepted := hs.accepted

theorem read (hs : Stage h made known) (t : Instant) : Stage (h ++ [.read t]) made known where
  calls := by rw [answered_read, hs.calls]
  seen := List.subset_append_of_subset_left _ hs.seen
  unit := hs.unit
  accepted := hs.accepted.concat fun _ _ he => by cases he

theorem replied (hs : Stage h made known) {c : Call}
    (hu : ∀ u, c.unit? = some u → .replied .openUnit (.ok u) ∈ known) {r : c.Reply}
    (hr : c.writes = true → ∃ a, r = .ok a) :
    Stage (h ++ [.replied c r]) (made ++ [c]) known where
  calls := by rw [answered_replied, hs.calls]
  seen := List.subset_append_of_subset_left _ hs.seen
  unit c' hc u hcu := by
    rcases List.mem_append.mp hc with hc | hc
    · exact hs.unit c' hc u hcu
    · cases List.mem_singleton.mp hc
      exact hu u hcu
  accepted := hs.accepted.concat fun c' r' he hc => by
    cases he
    exact hr hc

theorem disciplined (hs : Stage h made known) {settings : Settings} {command : Command} {c : Call}
    (hu : ∀ u, c.unit? = some u → .replied .openUnit (.ok u) ∈ known)
    (ho : command.InOrder settings known (made ++ [c])) : disciplineRule settings command h c := by
  refine ⟨⟨?_, ?_, fun _ _ => hs.accepted⟩, hs.accepted⟩
  · rw [hs.calls]
    exact ho.mono hs.seen
  · intro c' hc u hcu
    rw [hs.calls] at hc
    rcases List.mem_append.mp hc with hc | hc
    · exact hs.seen (hs.unit c' hc u hcu)
    · cases List.mem_singleton.mp hc
      exact hs.seen (hu u hcu)

end Stage

/-! ## The steps of the workflows -/

namespace Workflow

section Steps

variable {settings : Settings} {command : Command} {h known : List Observation} {made : List Call}

theorem unit_opened {u : UnitId} (hu : .replied .openUnit (.ok u) ∈ known) :
    ∀ v, some u = some v → .replied .openUnit (.ok v) ∈ known := by
  rintro v ⟨⟩
  exact hu

theorem no_unit : ∀ v : UnitId, none = some v → .replied .openUnit (.ok v) ∈ known := by
  rintro v ⟨⟩

/-- A call that writes nothing is made in order, and the workflow goes on whatever the reply is. -/
theorem obeys_lookUp {c : Call} {Q : List Observation → c.Reply → Prop} (hs : Stage h made known)
    (hc : c.writes = false) (hu : ∀ u, c.unit? = some u → .replied .openUnit (.ok u) ∈ known)
    (ho : command.InOrder settings known (made ++ [c]))
    (hQ : ∀ r h, Stage h (made ++ [c]) known → .replied c r ∈ h → Q h r) :
    Obeys (disciplineRule settings command).contract Q (ask c) h := by
  rw [obeys_ask]
  refine ⟨hs.disciplined hu ho, ?_⟩
  intro r
  refine hQ r _ (hs.replied hu fun he => ?_) (by simp)
  rw [hc] at he
  cases he

/-- A call is made in order, and the workflow goes on if it is answered with success. -/
theorem obeys_passed {c : Call} {handle : c.Reply → Workflow c.Value}
    {Q : List Observation → c.Value → Prop} (hp : Passes handle) (hs : Stage h made known)
    (hu : ∀ u, c.unit? = some u → .replied .openUnit (.ok u) ∈ known)
    (ho : command.InOrder settings known (made ++ [c]))
    (hQ : ∀ v h, Stage h (made ++ [c]) known → .replied c (.ok v) ∈ h → Q h v) :
    Obeys (disciplineRule settings command).contract Q (ask c >>= handle) h := by
  rw [obeys_bind, obeys_ask]
  refine ⟨hs.disciplined hu ho, ?_⟩
  intro r
  cases r with
  | ok v =>
    rw [hp.ok, obeys_pure]
    exact hQ v _ (hs.replied hu fun _ => ⟨v, rfl⟩) (by simp)
  | error e => exact hp.obeys_error Rule.lenient e

theorem obeys_placed {u : UnitId} {b : EntryBatch} {drafts : List Draft}
    {handle : Except StoreError Nat → Workflow Nat} {Q : List Observation → Nat → Prop}
    (hp : Passes handle) (hb : b.pending = drafts) (hne : drafts ≠ []) (hs : Stage h made known)
    (hu : .replied .openUnit (.ok u) ∈ known)
    (ho : command.InOrder settings known (made ++ [.append u drafts]))
    (hQ : ∀ x h, Stage h (made ++ [.append u drafts]) known → Q h x) :
    Obeys (disciplineRule settings command).contract Q
      (perform ((EntryBatch.place u).on b) >>= fun x => handle x.1) h := by
  subst hb
  rw [obeys_place hne]
  refine ⟨hs.disciplined (unit_opened hu) ho, ?_⟩
  intro r
  cases r with
  | ok v =>
    apply hp.obeys Rule.lenient
    intro count _
    exact hQ _ _ (hs.replied (c := .append u b.pending) (unit_opened hu) (r := .ok v) fun _ => ⟨v, rfl⟩)
  | error e => exact hp.obeys_error Rule.lenient e

theorem obeys_lastSequence {α : Type} {step : Step} {f : SequenceNumber → α}
    {r : Except StoreError Entry} {Q : List Observation → α → Prop} (hQ : ∀ n, Q h (f n)) :
    Obeys (disciplineRule settings command).contract Q
      (orInternal step ((EntryBatch.lastSequence r).map f)) h := by
  apply (passes_orInternal step).obeys Rule.lenient
  intro a ha
  cases hr : EntryBatch.lastSequence r with
  | ok n =>
    rw [hr] at ha
    cases ha
    exact hQ n
  | error e =>
    rw [hr] at ha
    cases ha

theorem obeys_firstBatch {id : AccountId} {t : TransactionId} {version : SchemaVersion} {step : Step}
    {Q : List Observation → EntryBatch → Prop} (hs : Stage h made known)
    (ho : command.InOrder settings known (made ++ [.findLast id]))
    (hQ : ∀ n h, Stage h (made ++ [.findLast id]) known → Q h (.startingAt id t version n)) :
    Obeys (disciplineRule settings command).contract Q
      (perform (EntryBatch.load id t version) >>= orInternal step) h := by
  change Obeys _ _ (ask (.findLast id) >>= fun r =>
    orInternal step ((EntryBatch.lastSequence r).map (EntryBatch.startingAt id t version))) _
  rw [obeys_bind]
  exact obeys_lookUp hs rfl no_unit ho fun r h hs _ => obeys_lastSequence fun n => hQ n h hs

theorem obeys_nextBatch {u : UnitId} {id : AccountId} {t : TransactionId} {version : SchemaVersion}
    {step : Step} {Q : List Observation → EntryBatch → Prop} (hs : Stage h made known)
    (hu : .replied .openUnit (.ok u) ∈ known)
    (ho : command.InOrder settings known (made ++ [.findLastIn u id]))
    (hQ : ∀ n h, Stage h (made ++ [.findLastIn u id]) known → Q h (.startingAt id t version n)) :
    Obeys (disciplineRule settings command).contract Q
      (perform (EntryBatch.loadIn u id t version) >>= orInternal step) h := by
  change Obeys _ _ (ask (.findLastIn u id) >>= fun r =>
    orInternal step ((EntryBatch.lastSequence r).map (EntryBatch.startingAt id t version))) _
  rw [obeys_bind]
  exact obeys_lookUp hs rfl (unit_opened hu) ho fun r h hs _ =>
    obeys_lastSequence fun n => hQ n h hs

end Steps

/-! ## Opening an account -/

section Create

variable {settings : Settings} {request : Request} {id : AccountId} {initial : Amount}
  {h known : List Observation}

theorem obeys_writeOpening {now : Instant} {batch : EntryBatch}
    (hbatch : batch.pending = request.openingDrafts settings id initial)
    (hs : Stage h [.findAccount id, .findByTransaction request.transaction, .findLast id] known) :
    (writeOpening batch (.opened id initial now)).Obeys
      (disciplineRule settings (.create request id initial)).contract (fun _ _ => True) h := by
  have hne : request.openingDrafts settings id initial ≠ [] := by simp [Request.openingDrafts]
  unfold writeOpening
  refine obeys_bind_bind.mpr
    (obeys_passed (passes_orInternal _) hs no_unit ⟨⟨0⟩, now, _, rfl⟩ fun u h hs hopened => ?_)
  have hs := hs.learn hopened
  have hu : .replied .openUnit (.ok u) ∈ Observation.replied .openUnit (.ok u) :: known :=
    List.mem_cons_self
  refine obeys_bind_bind.mpr
    (obeys_placed (passes_orExists _ _) hbatch hne hs hu ⟨u, now, _, rfl⟩ fun _ h hs => ?_)
  refine obeys_bind_bind.mpr (obeys_passed (passes_orExists _ _) hs (unit_opened hu)
    ⟨u, now, _, rfl⟩ fun _ h hs _ => ?_)
  exact obeys_passed (passes_orExists _ _) hs (unit_opened hu) ⟨u, now, _, rfl⟩
    fun _ _ _ _ => trivial

variable (settings request id initial) in
theorem obeys_discipline_create :
    (create settings request id initial).Obeys
      (disciplineRule settings (.create request id initial)).contract (fun _ _ => True) [] := by
  unfold create
  rw [obeys_bind]
  refine obeys_checkFresh (fun _ => Rule.lenient) fun now _ => ?_
  have hs := Stage.nil.read now
  rw [obeys_bind]
  refine obeys_lookUp hs rfl no_unit ⟨⟨0⟩, now, _, rfl⟩ fun found h hs _ => ?_
  rw [obeys_bind]
  refine obeys_checkAbsent Rule.lenient ?_
  rw [obeys_bind]
  refine obeys_lookUp hs rfl no_unit ⟨⟨0⟩, now, _, rfl⟩ fun recorded h hs _ => ?_
  rw [obeys_bind]
  refine obeys_checkUnused Rule.lenient ?_
  refine obeys_bind_bind.mpr (obeys_firstBatch hs ⟨⟨0⟩, now, _, rfl⟩ fun n h hs => ?_)
  split
  · rw [obeys_bind]
    exact obeys_reject.mpr trivial
  · rename_i hn
    obtain ⟨b, hb, hdrafts⟩ :=
      update_recordOpening settings request id initial now (Decidable.not_not.mp hn)
    simp only [EntryBatch.startingAt] at hb ⊢
    rw [hb, obeys_bind, obeys_ofResult, Contract.Fits, obeys_bind]
    exact (obeys_writeOpening hdrafts hs).mono fun _ _ _ => obeys_pure.mpr trivial

end Create

/-! ## Moving an amount -/

section Transfer

variable {settings : Settings} {request : Request} {source destination : AccountId} {amount : Amount}
  {u : UnitId} {h known : List Observation} {made : List Call}

def lockCalls (request : Request) (source destination : AccountId) (u : UnitId) : List Call :=
  [.findByTransaction request.transaction, .openUnit,
    .lockAccount u (if source < destination then source else destination),
    .lockAccount u (if source < destination then destination else source)]

def readCalls (request : Request) (source destination : AccountId) (u : UnitId) : List Call :=
  lockCalls request source destination u ++
    [.findByTransactionIn u request.transaction, .findLastIn u source, .findLastIn u destination]

/-- Before the writes the calls of a transfer do not depend on what was read. -/
theorem inOrder_transfer (hp : made <+: readCalls request source destination u) :
    (Command.transfer request source destination amount).InOrder settings known made := by
  let a := Account.opened source amount System.epoch
  refine ⟨u, .first, .first, a, a, hp.trans ⟨_, rfl⟩, ?_⟩
  rintro ⟨b, hb⟩
  have hmem := hp.subset hb
  simp [readCalls, lockCalls] at hmem

def Given (known : List Observation) (u : UnitId) (id : AccountId) (row : Option Account) : Prop :=
  ∀ a, row = some a → .replied (.lockAccount u id) (.ok a) ∈ known

theorem Given.mono {known' : List Observation} {id : AccountId} {row : Option Account}
    (hg : Given known u id row) (hk : known ⊆ known') : Given known' u id row :=
  fun a ha => hk (hg a ha)

theorem obeys_lock {command : Command} {id : AccountId}
    {Q : List Observation → Option Account → Prop}
    (hs : Stage h made known) (hu : .replied .openUnit (.ok u) ∈ known)
    (ho : command.InOrder settings known (made ++ [.lockAccount u id]))
    (hQ : ∀ row h known', Stage h (made ++ [.lockAccount u id]) known' → known ⊆ known' →
      Given known' u id row → Q h row) :
    Obeys (disciplineRule settings command).contract Q (ask (.lockAccount u id) >>= lockedRow) h := by
  rw [obeys_bind]
  refine obeys_lookUp hs rfl (unit_opened hu) ho fun r h hs hr => ?_
  cases r with
  | ok a =>
    refine obeys_pure.mpr (hQ _ h _ (hs.learn hr) (List.subset_cons_self _ _) ?_)
    rintro b ⟨⟩
    exact List.mem_cons_self
  | error e =>
    rw [lockedRow]
    split
    · refine obeys_pure.mpr (hQ _ h _ hs (List.Subset.refl _) ?_)
      rintro b ⟨⟩
    · exact obeys_reject.mpr trivial

theorem obeys_lockBoth {α : Type} {Q : List Observation → α → Prop} {low high : AccountId}
    (hlow : low = if source < destination then source else destination)
    (hhigh : high = if source < destination then destination else source)
    (hs : Stage h [.findByTransaction request.transaction, .openUnit] known)
    (hu : .replied .openUnit (.ok u) ∈ known) {next : Option Account → Option Account → Workflow α}
    (hnext : ∀ lowRow highRow h known', Stage h (lockCalls request source destination u) known' →
      known ⊆ known' → Given known' u low lowRow → Given known' u high highRow →
      (next lowRow highRow).Obeys
        (disciplineRule settings (.transfer request source destination amount)).contract Q h) :
    Obeys (disciplineRule settings (.transfer request source destination amount)).contract Q (do
      let lowRow ← lockedRow (← ask (.lockAccount u low))
      let highRow ← lockedRow (← ask (.lockAccount u high))
      next lowRow highRow) h := by
  subst hlow hhigh
  refine obeys_bind_bind.mpr
    (obeys_lock hs hu (inOrder_transfer ⟨_, rfl⟩) fun lowRow h known₁ hs hk hg => ?_)
  refine obeys_bind_bind.mpr
    (obeys_lock hs (hk hu) (inOrder_transfer ⟨_, rfl⟩) fun highRow h known₂ hs hk' hg' => ?_)
  exact hnext lowRow highRow h known₂ hs (List.Subset.trans hk hk') (hg.mono hk') hg'

theorem obeys_lockPairIn {Q : List Observation → Option Account × Option Account → Prop}
    (hs : Stage h [.findByTransaction request.transaction, .openUnit] known)
    (hu : .replied .openUnit (.ok u) ∈ known)
    (hQ : ∀ a c h known', Stage h (lockCalls request source destination u) known' →
      known ⊆ known' → Given known' u source a → Given known' u destination c → Q h (a, c)) :
    (lockPair u source destination).Obeys
      (disciplineRule settings (.transfer request source destination amount)).contract Q h := by
  unfold lockPair
  split
  · rename_i hlt
    exact obeys_lockBoth (if_pos hlt).symm (if_pos hlt).symm hs hu fun a c h known hs hk ha hc =>
      obeys_pure.mpr (hQ a c h known hs hk ha hc)
  · rename_i hnot
    exact obeys_lockBoth (if_neg hnot).symm (if_neg hnot).symm hs hu fun c a h known hs hk hc ha =>
      obeys_pure.mpr (hQ a c h known hs hk ha hc)

theorem obeys_recorded {command : Command} {id : AccountId} {i : SequenceNumber} {e : Event}
    {Q : List Observation → EntryBatch → Prop}
    (hQ : ∀ b n, b.pending = [request.draft settings id n e] → Q h b) :
    Obeys (disciplineRule settings command).contract Q (ofResult ((EntryBatch.record e).update
      (.startingAt id request.transaction settings.version i))) h := by
  apply obeys_result Rule.lenient
  intro b hb
  rw [EntryBatch.update_record] at hb
  split at hb
  · rename_i n hn
    cases hb
    exact hQ _ n rfl
  · cases hb

theorem obeys_transferBatchesIn {Q : List Observation → EntryBatch × EntryBatch → Prop}
    (hs : Stage h (lockCalls request source destination u ++
      [.findByTransactionIn u request.transaction]) known)
    (hu : .replied .openUnit (.ok u) ∈ known)
    (hQ : ∀ debits credits n m h, Stage h (readCalls request source destination u) known →
      debits.pending = [request.draft settings source n (.debited destination amount)] →
      credits.pending = [request.draft settings destination m (.credited source amount)] →
      Q h (debits, credits)) :
    (transferBatches settings request u source destination amount).Obeys
      (disciplineRule settings (.transfer request source destination amount)).contract Q h := by
  unfold transferBatches
  refine obeys_bind_bind.mpr
    (obeys_nextBatch hs hu (inOrder_transfer ⟨_, rfl⟩) fun i h hs => ?_)
  refine obeys_bind_bind.mpr
    (obeys_nextBatch hs hu (inOrder_transfer ⟨_, rfl⟩) fun j h hs => ?_)
  rw [obeys_bind]
  refine obeys_recorded fun debits n hdebits => ?_
  rw [obeys_bind]
  refine obeys_recorded fun credits m hcredits => obeys_pure.mpr ?_
  exact hQ debits credits n m h hs hdebits hcredits

theorem obeys_writeTransferIn {debits credits : EntryBatch} {n m : SequenceNumber}
    {debited credited : Account} (hs : Stage h (readCalls request source destination u) known)
    (hu : .replied .openUnit (.ok u) ∈ known)
    (hmoves : Moves known u source destination amount debited credited)
    (hdebits : debits.pending = [request.draft settings source n (.debited destination amount)])
    (hcredits : credits.pending = [request.draft settings destination m (.credited source amount)]) :
    (writeTransfer u debits credits debited credited).Obeys
      (disciplineRule settings (.transfer request source destination amount)).contract
      (fun _ _ => True) h := by
  have horder {made : List Call} (hp : made <+: request.transferCalls settings source destination
      amount u n m debited credited ++ [.commit u]) :
      (Command.transfer request source destination amount).InOrder settings known made :=
    ⟨u, n, m, debited, credited, hp, fun _ => hmoves⟩
  have hp {step : Step} : Passes (orInternal (α := Unit) step) := passes_orInternal step
  unfold writeTransfer
  -- two appends, two rows, the commit: each is made only if the one before it was accepted
  refine obeys_bind_bind.mpr (obeys_placed (passes_orInternal _) hdebits (List.cons_ne_nil _ _) hs hu
    (horder ⟨_, rfl⟩) fun _ h hs => ?_)
  refine obeys_bind_bind.mpr (obeys_placed (passes_orInternal _) hcredits (List.cons_ne_nil _ _) hs hu
    (horder ⟨_, rfl⟩) fun _ h hs => ?_)
  refine obeys_bind_bind.mpr
    (obeys_passed hp hs (unit_opened hu) (horder ⟨_, rfl⟩) fun _ h hs _ => ?_)
  refine obeys_bind_bind.mpr
    (obeys_passed hp hs (unit_opened hu) (horder ⟨_, rfl⟩) fun _ h hs _ => ?_)
  exact obeys_passed hp hs (unit_opened hu) (horder ⟨_, rfl⟩) fun _ _ _ _ => trivial

variable (settings request source destination amount) in
theorem obeys_discipline_transfer :
    (transfer settings request source destination amount).Obeys
      (disciplineRule settings (.transfer request source destination amount)).contract
      (fun _ _ => True) [] := by
  unfold transfer
  rw [obeys_bind]
  refine obeys_checkFresh (fun _ => Rule.lenient) fun checked _ => ?_
  have hs := Stage.nil.read checked
  rw [obeys_bind]
  refine obeys_lookUp hs rfl no_unit (inOrder_transfer (u := ⟨0⟩) ⟨_, rfl⟩) fun recorded h hs _ => ?_
  rw [obeys_bind]
  refine obeys_checkUnused Rule.lenient ?_
  split
  · rw [obeys_bind]
    exact obeys_reject.mpr trivial
  refine obeys_bind_bind.mpr (obeys_passed (passes_orInternal _) hs no_unit
    (inOrder_transfer (u := ⟨0⟩) ⟨_, rfl⟩) fun u h hs hopened => ?_)
  rw [obeys_bind]
  refine obeys_lockPairIn (hs.learn hopened) List.mem_cons_self
    fun sourceRow destinationRow h known hs hk hsource hdestination => ?_
  have hu : .replied .openUnit (.ok u) ∈ known := hk List.mem_cons_self
  -- both rows were given with their locks, and the clock says when they change
  rw [obeys_bind]
  refine obeys_requireRow Rule.lenient fun a ha => ?_
  rw [obeys_bind]
  refine obeys_requireRow Rule.lenient fun c hc => ?_
  rw [obeys_bind]
  refine obeys_lookUp hs rfl (unit_opened hu) (inOrder_transfer ⟨_, rfl⟩) fun recorded h hs _ => ?_
  rw [obeys_bind]
  refine obeys_checkUnused Rule.lenient ?_
  rw [obeys_bind, obeys_now]
  intro now
  have hread : .read now ∈ h ++ [Observation.read now] := by simp
  have hs := (hs.read now).learn hread
  rw [obeys_bind]
  refine obeys_result Rule.lenient fun debited hdebit => ?_
  rw [obeys_bind]
  refine obeys_result Rule.lenient fun credited hcredit => ?_
  rw [obeys_bind]
  refine obeys_transferBatchesIn hs (List.mem_cons_of_mem _ hu)
    fun debits credits n m h hs hdebits hcredits => ?_
  refine obeys_writeTransferIn hs (List.mem_cons_of_mem _ hu) ?_ hdebits hcredits
  exact ⟨a, c, now, List.mem_cons_of_mem _ (hsource a ha), List.mem_cons_of_mem _ (hdestination c hc),
    List.mem_cons_self, hdebit, hcredit⟩

end Transfer

theorem obeys_discipline_lookup (settings : Settings) (id : AccountId) :
    (lookup id).Obeys (disciplineRule settings (.get id)).contract (fun _ _ => True) [] := by
  rw [lookup, obeys_bind]
  refine obeys_lookUp Stage.nil rfl no_unit ⟨_, rfl⟩ fun r h _ _ => ?_
  cases r with
  | ok a => exact obeys_pure.mpr trivial
  | error e =>
    simp only
    split <;> exact obeys_reject.mpr trivial

end Workflow

namespace Command

variable {settings : Settings} {command : Command}

theorem obeys_discipline (settings : Settings) (command : Command) :
    (command.program settings).Obeys (disciplineRule settings command).contract (fun _ _ => True) [] := by
  have hobeys : (command.workflow settings).Obeys (disciplineRule settings command).contract
      (fun _ _ => True) [] := by
    cases command with
    | create request id initial =>
      exact Workflow.obeys_map.mpr (Workflow.obeys_discipline_create settings request id initial)
    | transfer request source destination amount =>
      exact Workflow.obeys_map.mpr
        (Workflow.obeys_discipline_transfer settings request source destination amount)
    | get id => exact Workflow.obeys_map.mpr (Workflow.obeys_discipline_lookup settings id)
  exact Program.Obeys.mono hobeys fun _ _ _ => trivial

theorem disciplined_nil (settings : Settings) (command : Command) :
    command.Disciplined settings [] [] := by
  refine ⟨?_, fun c hc => absurd hc List.not_mem_nil, fun u hu => absurd hu List.not_mem_nil⟩
  cases command with
  | create request id initial => exact ⟨⟨0⟩, System.epoch, _, rfl⟩
  | transfer request source destination amount =>
    exact Workflow.inOrder_transfer (u := ⟨0⟩) ⟨_, rfl⟩
  | get id => exact ⟨_, rfl⟩

/-- Over any store, whatever it replies and wherever the command is stopped, an opening and a transfer
make their calls in their order, with the lock of the smaller id first; all of them belong to the unit of
work that was opened, and the rows that a transfer writes come from those it was given with its locks. A
commit is the last call and the only commit, and all writes before it were accepted. The command
succeeds just if its commit was answered with success. -/
theorem commit_discipline (settings : Settings) (command : Command) {h : List Observation}
    {p : Program (Except Failure Answer)} (hr : (command.program settings).Reaches h p) :
    command.InOrder settings h (p.made h) ∧
    (∀ c ∈ p.made h, ∀ u, c.unit? = some u → .replied .openUnit (.ok u) ∈ h) ∧
    (∀ u, .commit u ∈ p.made h →
      (∃ before, p.made h = before ++ [.commit u] ∧ ∀ v, .commit v ∉ before) ∧ Accepted h) ∧
    ((∀ id, command ≠ .get id) →
      ((∃ a, p = .done (.ok a)) ↔ ∃ u, .replied (.commit u) (.ok ()) ∈ h)) := by
  have hd : command.Disciplined settings h (p.made h) := by
    have h₀ := hr.disciplined (obeys_discipline settings command) (disciplined_nil settings command)
    rwa [List.nil_append] at h₀
  refine ⟨hd.order, hd.unit, ?_, ?_⟩
  · intro u hu
    exact ⟨hd.order.eq_concat_commit hu, hd.accepted u hu⟩
  · intro hwrites
    have hruns := hr.obeys Contract.open_conduct (runs_program settings command)
    have hcommitted := hr.ending_iff (runs_program settings command)
    constructor
    · rintro ⟨a, rfl⟩
      rcases hruns with ⟨hnone, -⟩ | ⟨hending, -⟩
      · cases command with
        | get id => exact absurd rfl (hwrites id)
        | _ => cases hnone
      · obtain ⟨o, ho, hcommit⟩ := (hcommitted.mp hending).resolve_left (by simp)
        obtain ⟨u, rfl⟩ := o.exists_of_isCommit hcommit
        exact ⟨u, ho⟩
    · rintro ⟨u, hu⟩
      obtain ⟨posting, -, hp⟩ :=
        eq_done_of_committed hruns (hcommitted.mpr (.inr ⟨_, hu, rfl⟩))
      exact ⟨posting.answer, hp⟩

def opening : Request := ⟨System.txA, System.epoch⟩

def undisturbed : List Observation :=
  [.read System.epoch, .replied (.findAccount System.idA) (.error (.notFound "account")),
    .replied (.findByTransaction System.txA) (.ok []),
    .replied (.findLast System.idA) (.error (.notFound "event")), .replied .openUnit (.ok ⟨0⟩),
    .replied (.append ⟨0⟩ (opening.openingDrafts .standard System.idA System.ten)) (.ok ()),
    .replied (.upsertAccount ⟨0⟩ (.opened System.idA System.ten System.epoch)) (.ok ()),
    .replied (.commit ⟨0⟩) (.ok ())]

theorem commit_discipline_undisturbed :
    let command := Command.create opening System.idA System.ten
    ∃ p, (command.program .standard).Reaches undisturbed p ∧
      command.InOrder .standard undisturbed (p.made undisturbed) ∧ Accepted undisturbed ∧
      ∃ a, p = .done (.ok a) := by
  intro command
  have hr : (command.program .standard).Reaches undisturbed
      (.done (.ok (.account (.opened System.idA System.ten System.epoch)))) :=
    .read _ (.replied _ (.replied _ (.replied _ (.replied _ (.replied _ (.replied _ (.replied _
      (.start _))))))))
  obtain ⟨horder, -, hcommit, hiff⟩ := commit_discipline .standard command hr
  have hmade : .commit ⟨0⟩ ∈ Program.made undisturbed
      (.done (.ok (.account (.opened System.idA System.ten System.epoch))) :
        Program (Except Failure Answer)) := by
    simp [Program.made, undisturbed, answered, Observation.call?]
  have hwrites : ∀ id, Command.create opening System.idA System.ten ≠ .get id :=
    fun _ he => by cases he
  have hlast : .replied (.commit ⟨0⟩) (.ok ()) ∈ undisturbed := by simp [undisturbed]
  exact ⟨_, hr, horder, (hcommit ⟨0⟩ hmade).2, (hiff hwrites).mpr ⟨⟨0⟩, hlast⟩⟩

end Command

end Bookkeeping
