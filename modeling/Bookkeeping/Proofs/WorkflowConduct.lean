import Bookkeeping.Proofs.Conduct

/-! # The conduct of the workflows

One rule for each step that workflows share, then the two workflows that write. What either of them
has written when it is about to succeed is a posting of its command, worked out from the rows and
numbers that it has read.
-/
namespace Bookkeeping
open Bookkeeping.Time

/-- A program of a command that is about to succeed has written this posting. -/
inductive Command.Ready (settings : Settings) : Command → Knowledge → Posting → Prop where
  | opening {request : Request} {id : AccountId} {initial : Amount} {now : Instant} {k : Knowledge}
      (readings : k.readings = [now]) (fresh : Workflow.Fresh settings request now)
      (drafts : k.drafts = (Posting.opening settings request id initial now).drafts)
      (rows : k.rows = (Posting.opening settings request id initial now).rows) :
      Ready settings (.create request id initial) k (.opening settings request id initial now)
  | movement {request : Request} {source destination : AccountId} {amount : Amount}
      {checked now : Instant} {a c debited credited : Account} {i j n m : SequenceNumber}
      {k : Knowledge} (readings : k.readings = [checked, now])
      (fresh : Workflow.Fresh settings request checked) (ne : source ≠ destination)
      (source_row : (source, a) ∈ k.locked) (destination_row : (destination, c) ∈ k.locked)
      (source_cleared : source ∈ k.cleared) (destination_cleared : destination ∈ k.cleared)
      (debit : a.debited amount now = .ok debited) (credit : c.credited amount now = .ok credited)
      (source_number : (source, i) ∈ k.numbers ∨ i = .initial) (source_next : i.next? = some n)
      (destination_number : (destination, j) ∈ k.numbers ∨ j = .initial)
      (destination_next : j.next? = some m)
      (drafts : k.drafts =
        (Posting.movement settings request source destination amount debited credited n m).drafts)
      (rows : k.rows = putRow credited [debited]) :
      Ready settings (.transfer request source destination amount) k
        (.movement settings request source destination amount debited credited n m)

namespace Workflow

variable {α β : Type} {Q : Knowledge → α → Prop} {k : Knowledge}

theorem lenient (hk : k.ending = none) : Contract.conduct.Lenient k :=
  fun why => Knowledge.fails_of_ending_eq_none hk why

namespace Passes

variable {handle : Except StoreError α → Workflow α}

theorem runs_upsert {handle : Except StoreError Unit → Workflow Unit} {Q : Knowledge → Unit → Prop}
    (h : Passes handle) {u : UnitId} {a : Account} (hk : k.ending = none) (hu : k.unit = some u)
    (hQ : Q { k with rows := putRow a k.rows } ()) :
    Obeys .conduct Q (do handle (← ask (.upsertAccount u a))) k := by
  rw [obeys_bind, obeys_ask]
  refine ⟨⟨hk, hu⟩, ?_⟩
  intro r
  cases r with
  | ok x => exact h.obeys (lenient hk) fun _ _ => hQ
  | error e => exact h.obeys_error (lenient hk) e

theorem runs_commit {handle : Except StoreError Unit → Workflow Unit} {Q : Knowledge → Unit → Prop}
    (h : Passes handle) {u : UnitId} (hk : k.ending = none) (hu : k.unit = some u)
    (hQ : Q { k with ending := some .committed } ()) :
    Obeys .conduct Q (do handle (← ask (.commit u))) k := by
  rw [obeys_bind, obeys_ask]
  refine ⟨⟨hk, hu⟩, ?_⟩
  intro r
  cases r with
  | ok x => rw [h.ok, obeys_pure]; exact hQ
  | error e =>
    obtain ⟨why, he⟩ := h.error e
    rw [he, obeys_reject]
    simp [Knowledge.Fails, Knowledge.tell]

theorem runs_place {handle : Except StoreError Nat → Workflow Nat} {Q : Knowledge → Nat → Prop}
    (h : Passes handle) {u : UnitId} {b : EntryBatch} (hb : b.pending ≠ []) (hk : k.ending = none)
    (hu : k.unit = some u) (hQ : ∀ x, Q { k with drafts := k.drafts ++ b.pending } x) :
    Obeys .conduct Q (do handle (← perform ((EntryBatch.place u).on b)).1) k := by
  rw [obeys_place hb]
  refine ⟨⟨hk, hu⟩, ?_⟩
  intro r
  cases r with
  | ok x => exact h.obeys (lenient hk) fun a _ => hQ a
  | error e => exact h.obeys_error (lenient hk) e

end Passes

theorem runs_openUnit {step : Step} {Q : Knowledge → UnitId → Prop} (hk : k.ending = none)
    (hu : k.unit = none) (hs : k.searched = true)
    (hQ : ∀ u, Q { transaction := k.transaction
                   readings := k.readings
                   searched := k.searched
                   unit := some u } u) :
    Obeys .conduct Q (do orInternal step (← ask .openUnit)) k := by
  rw [obeys_bind, obeys_ask]
  refine ⟨⟨hk, hu, hs⟩, ?_⟩
  intro r
  cases r with
  | ok u => exact hQ u
  | error e => exact (passes_orInternal step).obeys_error (lenient hk) e

theorem fails_recorded {t : TransactionId} (ht : k.transaction = some t) :
    { k with ending := some .recorded }.Fails (.rejected (.alreadyRecorded t)) :=
  ⟨by simp, fun _ => ⟨t, ht, rfl⟩⟩

theorem runs_checkUnused {t : TransactionId} {step : Step} {Q : Knowledge → Unit → Prop}
    (hk : k.ending = none) (ht : k.transaction = some t) (hQ : Q { k with searched := true } ()) :
    Obeys .conduct Q (do checkUnused t step (← ask (.findByTransaction t))) k := by
  rw [obeys_bind, obeys_ask]
  refine ⟨⟨hk, ht⟩, ?_⟩
  intro r
  cases r with
  | ok es =>
    cases es with
    | nil => exact hQ
    | cons e rest => exact fails_recorded ht
  | error e =>
    cases he : e.isNotFound with
    | true =>
      simp only [checkUnused, Knowledge.tell, he, if_true]
      exact hQ
    | false =>
      simp only [checkUnused, Knowledge.tell, he, Bool.false_eq_true, if_false]
      exact Knowledge.fails_of_ending_eq_none hk _

theorem runs_recheckUnused {u : UnitId} {t : TransactionId} {step : Step}
    {Q : Knowledge → Unit → Prop} (hk : k.ending = none) (hu : k.unit = some u)
    (ht : k.transaction = some t) (hd : k.drafts = [])
    (hQ : Q { k with cleared := k.locked.map (·.1) } ()) :
    Obeys .conduct Q (do checkUnused t step (← ask (.findByTransactionIn u t))) k := by
  rw [obeys_bind, obeys_ask]
  refine ⟨⟨hk, hu, ht, hd⟩, ?_⟩
  intro r
  cases r with
  | ok es =>
    cases es with
    | nil => exact hQ
    | cons e rest => exact fails_recorded ht
  | error e =>
    cases he : e.isNotFound with
    | true =>
      simp only [checkUnused, Knowledge.tell, he, if_true]
      exact hQ
    | false =>
      simp only [checkUnused, Knowledge.tell, he, Bool.false_eq_true, if_false]
      exact Knowledge.fails_of_ending_eq_none hk _

/-! ## Opening an account -/

theorem runs_load {id : AccountId} {t : TransactionId} {version : SchemaVersion} {step : Step}
    {Q : Knowledge → EntryBatch → Prop} (hk : k.ending = none)
    (hQ : ∀ n, Q k (.startingAt id t version n)) :
    Obeys .conduct Q (do orInternal step (← perform (EntryBatch.load id t version))) k := by
  rw [obeys_load]
  refine ⟨⟨hk, trivial⟩, fun r => (passes_orInternal step).obeys (lenient hk) fun b hb => ?_⟩
  cases hr : EntryBatch.lastSequence r with
  | ok n =>
    rw [hr] at hb
    cases hb
    exact hQ n
  | error e =>
    rw [hr] at hb
    cases hb

theorem update_recordOpening (settings : Settings) (request : Request) (id : AccountId)
    (initial : Amount) (now : Instant) {n : SequenceNumber} (hn : n = .initial) :
    ∃ b, (recordOpening initial).update (.startingAt id request.transaction settings.version n) =
        .ok b ∧ b.pending = (Posting.opening settings request id initial now).drafts := by
  subst hn
  exact ⟨_, rfl, rfl⟩

theorem runs_create (settings : Settings) (request : Request) (id : AccountId) (initial : Amount) :
    Obeys .conduct (fun k a => k.ending = some .committed ∧ ∃ p,
        Command.Ready settings (.create request id initial) k p ∧ .account a = p.answer)
      (create settings request id initial) { transaction := some request.transaction } := by
  unfold create
  rw [obeys_bind]
  refine obeys_checkFresh (fun _ => lenient rfl) ⟨rfl, ?_⟩
  intro now hfresh
  rw [obeys_bind, obeys_ask]
  refine ⟨⟨rfl, trivial⟩, ?_⟩
  intro found
  have hfound (k : Knowledge) :
      Contract.conduct.tell k (.replied (.findAccount id) found) = k := by
    cases found <;> rfl
  rw [hfound, obeys_bind]
  refine obeys_checkAbsent (lenient rfl) ?_
  refine obeys_bind_bind.mpr (runs_checkUnused rfl rfl ?_)
  refine obeys_bind_bind.mpr (runs_load rfl ?_)
  intro n
  split
  · rw [obeys_bind]
    exact Knowledge.fails_of_ending_eq_none rfl _
  · rename_i hn
    obtain ⟨b, hb, hdrafts⟩ :=
      update_recordOpening settings request id initial now (Decidable.not_not.mp hn)
    simp only [EntryBatch.startingAt] at hb ⊢
    rw [hb, obeys_bind, obeys_ofResult, Contract.Fits, obeys_bind, writeOpening]
    refine obeys_bind_bind.mpr (runs_openUnit rfl rfl rfl ?_)
    intro u
    refine obeys_bind_bind.mpr ((passes_orExists _ _).runs_place ?_ rfl rfl fun _ => ?_)
    · simp [hdrafts, Posting.opening]
    refine obeys_bind_bind.mpr ((passes_orExists _ _).runs_upsert rfl rfl ?_)
    refine (passes_orExists _ _).runs_commit rfl rfl ?_
    exact ⟨rfl, _, .opening rfl hfresh hdrafts rfl, rfl⟩

/-! ## Moving an amount -/

theorem runs_lockedRow {u : UnitId} {id : AccountId} {Q : Knowledge → Option Account → Prop}
    (hk : k.ending = none) (hu : k.unit = some u) (hr : k.rows = [])
    (hsome : ∀ a, Q { k with locked := (id, a) :: k.locked } (some a)) (hnone : Q k none) :
    Obeys .conduct Q (do lockedRow (← ask (.lockAccount u id))) k := by
  rw [obeys_bind, obeys_ask]
  refine ⟨⟨hk, hu, hr⟩, ?_⟩
  intro r
  cases r with
  | ok a => exact hsome a
  | error e =>
    simp only [lockedRow]
    split
    · exact hnone
    · exact Knowledge.fails_of_ending_eq_none hk _

theorem runs_lockPair {u : UnitId} {source destination : AccountId}
    {Q : Knowledge → Option Account × Option Account → Prop}
    (hk : k.ending = none) (hu : k.unit = some u) (hr : k.rows = [])
    (hQ : ∀ locked a c, (∀ x, a = some x → (source, x) ∈ locked) →
      (∀ x, c = some x → (destination, x) ∈ locked) → Q { k with locked } (a, c)) :
    Obeys .conduct Q (lockPair u source destination) k := by
  unfold lockPair
  split
  · refine obeys_bind_bind.mpr (runs_lockedRow hk hu hr (fun a => ?_) ?_)
    · refine obeys_bind_bind.mpr (runs_lockedRow hk hu hr (fun c => ?_) ?_)
      · exact hQ _ _ _ (by simp) (by simp)
      · exact hQ _ _ _ (by simp) (by simp)
    · refine obeys_bind_bind.mpr (runs_lockedRow hk hu hr (fun c => ?_) ?_)
      · exact hQ _ _ _ (by simp) (by simp)
      · exact hQ _ _ _ (by simp) (by simp)
  · refine obeys_bind_bind.mpr (runs_lockedRow hk hu hr (fun c => ?_) ?_)
    · refine obeys_bind_bind.mpr (runs_lockedRow hk hu hr (fun a => ?_) ?_)
      · exact hQ _ _ _ (by simp) (by simp)
      · exact hQ _ _ _ (by simp) (by simp)
    · refine obeys_bind_bind.mpr (runs_lockedRow hk hu hr (fun a => ?_) ?_)
      · exact hQ _ _ _ (by simp) (by simp)
      · exact hQ _ _ _ (by simp) (by simp)

theorem runs_loadIn {u : UnitId} {id : AccountId} {t : TransactionId} {version : SchemaVersion}
    {step : Step} {Q : Knowledge → EntryBatch → Prop} (hk : k.ending = none) (hu : k.unit = some u)
    (hd : k.drafts = []) (hid : id ∈ k.locked.map (·.1))
    (hQ : ∀ numbers n, k.numbers ⊆ numbers → (id, n) ∈ numbers ∨ n = .initial →
      Q { k with numbers } (.startingAt id t version n)) :
    Obeys .conduct Q (do orInternal step (← perform (EntryBatch.loadIn u id t version))) k := by
  rw [obeys_loadIn]
  refine ⟨⟨hk, hu, hd, hid⟩, ?_⟩
  intro r
  cases r with
  | ok e => exact hQ _ _ (List.subset_cons_self _ _) (.inl List.mem_cons_self)
  | error e =>
    apply (passes_orInternal step).obeys (lenient hk)
    intro b hb
    cases he : e.isNotFound with
    | true =>
      simp only [EntryBatch.lastSequence, he, if_true, Except.map, Except.ok.injEq] at hb
      subst hb
      exact hQ _ _ (List.Subset.refl _) (.inr rfl)
    | false =>
      simp only [EntryBatch.lastSequence, he, Bool.false_eq_true, if_false, Except.map,
        reduceCtorEq] at hb

theorem runs_record {settings : Settings} {request : Request} {id : AccountId} {i : SequenceNumber}
    {e : Event} {Q : Knowledge → EntryBatch → Prop} (hk : k.ending = none)
    (hQ : ∀ b n, i.next? = some n → b.pending = [request.draft settings id n e] → Q k b) :
    Obeys .conduct Q (ofResult ((EntryBatch.record e).update
      (.startingAt id request.transaction settings.version i))) k := by
  apply obeys_result (lenient hk)
  intro b hb
  rw [EntryBatch.update_record] at hb
  split at hb
  · rename_i n hn
    cases hb
    exact hQ _ n hn rfl
  · cases hb

/-- Each batch holds one draft, whose number follows what was read under the locks. -/
theorem runs_transferBatches {settings : Settings} {request : Request} {u : UnitId}
    {source destination : AccountId} {amount : Amount} {Q : Knowledge → EntryBatch × EntryBatch → Prop}
    (hk : k.ending = none) (hu : k.unit = some u) (hd : k.drafts = [])
    (hs : source ∈ k.locked.map (·.1)) (hdest : destination ∈ k.locked.map (·.1))
    (hQ : ∀ numbers i j n m debits credits, (source, i) ∈ numbers ∨ i = .initial →
      i.next? = some n → (destination, j) ∈ numbers ∨ j = .initial → j.next? = some m →
      debits.pending = [request.draft settings source n (.debited destination amount)] →
      credits.pending = [request.draft settings destination m (.credited source amount)] →
      Q { k with numbers } (debits, credits)) :
    Obeys .conduct Q (transferBatches settings request u source destination amount) k := by
  unfold transferBatches
  refine obeys_bind_bind.mpr (runs_loadIn hk hu hd hs ?_)
  intro numbers i _ hi
  refine obeys_bind_bind.mpr (runs_loadIn hk hu hd hdest ?_)
  intro numbers' j hsub hj
  rw [obeys_bind]
  refine runs_record hk ?_
  intro debits n hn hdebits
  rw [obeys_bind]
  apply runs_record hk
  intro credits m hm hcredits
  exact hQ numbers' i j n m debits credits (hi.imp_left (hsub ·)) hn hj hm hdebits hcredits

theorem runs_writeTransfer {u : UnitId} {debits credits : EntryBatch} {debited credited : Account}
    {Q : Knowledge → Unit → Prop} (hk : k.ending = none) (hu : k.unit = some u)
    (hdebits : debits.pending ≠ []) (hcredits : credits.pending ≠ [])
    (hQ : Q { k with
      drafts := k.drafts ++ debits.pending ++ credits.pending
      rows := putRow credited (putRow debited k.rows)
      ending := some .committed } ()) :
    Obeys .conduct Q (writeTransfer u debits credits debited credited) k := by
  unfold writeTransfer
  refine obeys_bind_bind.mpr ((passes_orInternal _).runs_place hdebits hk hu ?_)
  intro _
  refine obeys_bind_bind.mpr ((passes_orInternal _).runs_place hcredits hk hu ?_)
  intro _
  refine obeys_bind_bind.mpr ((passes_orInternal _).runs_upsert hk hu ?_)
  refine obeys_bind_bind.mpr ((passes_orInternal _).runs_upsert hk hu ?_)
  exact (passes_orInternal _).runs_commit hk hu hQ

theorem runs_transfer (settings : Settings) (request : Request) (source destination : AccountId)
    (amount : Amount) :
    Obeys .conduct (fun k _ => k.ending = some .committed ∧ ∃ p,
        Command.Ready settings (.transfer request source destination amount) k p ∧
          Answer.transferred = p.answer)
      (transfer settings request source destination amount)
      { transaction := some request.transaction } := by
  unfold transfer
  rw [obeys_bind]
  refine obeys_checkFresh (fun _ => lenient rfl) ⟨rfl, ?_⟩
  intro checked hfresh
  refine obeys_bind_bind.mpr (runs_checkUnused rfl rfl ?_)
  split
  · rw [obeys_bind]
    exact Knowledge.fails_of_ending_eq_none rfl _
  rename_i hne
  refine obeys_bind_bind.mpr (runs_openUnit rfl rfl rfl ?_)
  intro u
  rw [obeys_bind]
  apply runs_lockPair rfl rfl rfl
  intro locked sourceRow destinationRow hs hd
  rw [obeys_bind]
  apply obeys_requireRow (lenient rfl)
  intro a ha
  rw [obeys_bind]
  apply obeys_requireRow (lenient rfl)
  intro c hc
  have hsource := hs a ha
  have hdestination := hd c hc
  refine obeys_bind_bind.mpr (runs_recheckUnused rfl rfl rfl rfl ?_)
  rw [obeys_bind, obeys_now]
  refine ⟨rfl, ?_⟩
  intro now
  rw [obeys_bind]
  apply obeys_result (lenient rfl)
  intro debited hdebit
  rw [obeys_bind]
  apply obeys_result (lenient rfl)
  intro credited hcredit
  rw [obeys_bind]
  refine runs_transferBatches rfl rfl rfl (List.mem_map_of_mem hsource)
    (List.mem_map_of_mem hdestination)
    fun numbers i j n m debits credits hi hn hj hm hdebits hcredits => ?_
  refine runs_writeTransfer rfl rfl (by simp [hdebits]) (by simp [hcredits]) ?_
  refine ⟨rfl, _, .movement rfl hfresh hne hsource hdestination (List.mem_map_of_mem hsource)
    (List.mem_map_of_mem hdestination) hdebit hcredit hi hn hj hm ?_ rfl, rfl⟩
  simp [hdebits, hcredits, Posting.movement, Knowledge.tell]

theorem runs_lookup (id : AccountId) :
    Obeys .conduct (fun k _ => k.ending = none) (lookup id) { transaction := none } := by
  rw [lookup, obeys_bind, obeys_ask]
  refine ⟨⟨rfl, trivial⟩, ?_⟩
  intro r
  cases r with
  | ok a => exact rfl
  | error e =>
    simp only
    split <;> exact Knowledge.fails_of_ending_eq_none rfl _

end Workflow

namespace Command

/-- What fits at the end of a command: a lookup has committed nothing, any other success is that of
a posting, and a failure has committed nothing. -/
def Ends (settings : Settings) (command : Command) (k : Knowledge) : Except Failure Answer → Prop
  | .ok answer =>
    (command.transaction? = none ∧ k.ending = none) ∨
      (k.ending = some .committed ∧ ∃ p, command.Ready settings k p ∧ answer = p.answer)
  | .error why => k.Fails why

theorem runs_program (settings : Settings) (command : Command) :
    (command.program settings).Obeys .conduct (command.Ends settings) (.ofHistory command []) := by
  refine Program.Obeys.mono (Q := Contract.conduct.Fits fun k a => command.Ends settings k (.ok a)) ?_ ?_
  · cases command with
    | create request id initial =>
      refine Workflow.obeys_map.mpr ?_
      exact (Workflow.runs_create settings request id initial).mono fun _ _ h => .inr h
    | transfer request source destination amount =>
      refine Workflow.obeys_map.mpr ?_
      refine (Workflow.runs_transfer settings request source destination amount).mono ?_
      exact fun _ _ h => .inr h
    | get id =>
      refine Workflow.obeys_map.mpr ?_
      exact (Workflow.runs_lookup id).mono fun _ _ h => .inl ⟨rfl, h⟩
  · intro k r hr
    cases r <;> exact hr

/-- A program that has committed succeeds at once. -/
theorem eq_done_of_committed {settings : Settings} {command : Command} {k : Knowledge}
    {p : Program (Except Failure Answer)} (h : p.Obeys .conduct (command.Ends settings) k)
    (hk : k.ending = some .committed) :
    ∃ posting, command.Ready settings k posting ∧ p = .done (.ok posting.answer) := by
  cases p with
  | done r =>
    cases r with
    | ok answer =>
      rcases h with ⟨-, hnone⟩ | ⟨-, posting, hready, rfl⟩
      · rw [hk] at hnone
        cases hnone
      · exact ⟨posting, hready, rfl⟩
    | error why => exact absurd hk h.1
  | call c next =>
    rw [h.1.1] at hk
    cases hk
  | clock next =>
    rw [h.1] at hk
    cases hk

end Command

end Bookkeeping
