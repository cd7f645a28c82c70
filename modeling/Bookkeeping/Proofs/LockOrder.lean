import Bookkeeping.Proofs.Rules

/-! # The order of locks

A command asks for the lock of an account only after it has asked for none but locks of accounts with
smaller ids, and it looks its transaction up through its unit of work only once it has locked all the
rows that it is going to replace. Openings and lookups ask for no lock at all.
-/
namespace Bookkeeping
open Bookkeeping.Time

def Observation.lockAsked : Observation → Option AccountId
  | .replied (.lockAccount _ id) _ => some id
  | _ => none

def asked (h : List Observation) : List AccountId := h.filterMap Observation.lockAsked

theorem asked_concat (h : List Observation) (o : Observation) :
    asked (h ++ [o]) = asked h ++ o.lockAsked.toList := by
  rw [asked, List.filterMap_append]
  cases ho : o.lockAsked <;> simp [asked, ho]

/-- Locks are asked for in ascending order, and a transaction is looked up again only when the rows
of the command are locked. -/
def lockRule (command : Command) : Rule := fun h c =>
  match c with
  | .lockAccount _ id => ∀ other ∈ asked h, other < id
  | .findByTransactionIn .. =>
    ∀ id ∈ command.accounts, id ∈ (Knowledge.ofHistory command h).locked.map (·.1)
  | _ => True

/-- No lock is asked for, and no transaction is looked up under locks. -/
def lockFree : Rule := fun _ c =>
  match c with
  | .lockAccount .. | .findByTransactionIn .. => False
  | _ => True

theorem lockFree_imp_lockRule (command : Command) (h : List Observation) (c : Call)
    (hc : lockFree h c) : lockRule command h c := by
  cases c with
  | lockAccount u id => exact hc.elim
  | findByTransactionIn u t => exact hc.elim
  | _ => trivial

/-! ## Workflows without locks -/

namespace Workflow

variable {h : List Observation}

theorem lockFree_place {u : UnitId} {b : EntryBatch} {handle : Except StoreError Nat → Workflow Nat}
    {Q : List Observation → Nat → Prop} (hp : Passes handle) (hQ : ∀ h n, Q h n) :
    Obeys lockFree.contract Q (do handle (← perform ((EntryBatch.place u).on b)).1) h := by
  by_cases hb : b.pending = []
  · rw [obeys_bind, obeys_perform, EntryBatch.on_place_nil u hb]
    exact hp.obeys Rule.lenient fun n _ => hQ _ n
  · rw [obeys_place hb]
    refine ⟨trivial, ?_⟩
    intro r
    exact hp.obeys Rule.lenient fun n _ => hQ _ n

theorem lockFree_load {id : AccountId} {t : TransactionId} {version : SchemaVersion} {step : Step}
    {Q : List Observation → EntryBatch → Prop} (hQ : ∀ h b, Q h b) :
    Obeys lockFree.contract Q (do orInternal step (← perform (EntryBatch.load id t version))) h := by
  rw [obeys_load]
  refine ⟨trivial, ?_⟩
  intro r
  exact (passes_orInternal _).obeys Rule.lenient fun b _ => hQ _ b

theorem lockFree_loadIn {u : UnitId} {id : AccountId} {t : TransactionId} {version : SchemaVersion}
    {step : Step} {Q : List Observation → EntryBatch → Prop} (hQ : ∀ h b, Q h b) :
    Obeys lockFree.contract Q (do orInternal step (← perform (EntryBatch.loadIn u id t version))) h := by
  rw [obeys_loadIn]
  refine ⟨trivial, ?_⟩
  intro r
  exact (passes_orInternal _).obeys Rule.lenient fun b _ => hQ _ b

theorem lockFree_writeOpening {batch : EntryBatch} {account : Account} :
    (writeOpening batch account).Obeys lockFree.contract (fun _ _ => True) h := by
  unfold writeOpening
  apply obeys_bind_bind.mpr (obeys_handled (passes_orInternal _) trivial _)
  intro h u
  apply obeys_bind_bind.mpr (lockFree_place (passes_orExists _ _) _)
  intro h placed
  apply obeys_bind_bind.mpr (obeys_handled (passes_orExists _ _) trivial _)
  intro h written
  exact obeys_handled (passes_orExists _ _) trivial fun _ _ => trivial

theorem lockFree_create (settings : Settings) (request : Request) (id : AccountId)
    (initial : Amount) :
    (create settings request id initial).Obeys lockFree.contract (fun _ _ => True) h := by
  unfold create
  rw [obeys_bind]
  refine obeys_checkFresh (fun _ => Rule.lenient) fun now _ => ?_
  rw [obeys_bind, obeys_ask]
  refine ⟨trivial, ?_⟩
  intro found
  rw [obeys_bind]
  refine obeys_checkAbsent Rule.lenient ?_
  apply obeys_bind_bind.mpr (obeys_unused trivial _)
  intro recorded
  apply obeys_bind_bind.mpr (lockFree_load _)
  intro h batch
  split
  · rw [obeys_bind]
    exact obeys_reject.mpr trivial
  · rw [obeys_bind]
    refine obeys_result Rule.lenient fun batch _ => ?_
    rw [obeys_bind]
    exact lockFree_writeOpening.mono fun _ _ _ => obeys_pure.mpr trivial

theorem lockFree_lookup (id : AccountId) :
    (lookup id).Obeys lockFree.contract (fun _ _ => True) h := by
  rw [lookup, obeys_bind, obeys_ask]
  refine ⟨trivial, ?_⟩
  intro r
  cases r with
  | ok a => exact obeys_pure.mpr trivial
  | error e =>
    simp only
    split <;> exact obeys_reject.mpr trivial

theorem lockFree_transferBatches {settings : Settings} {request : Request} {u : UnitId}
    {source destination : AccountId} {amount : Amount} :
    (transferBatches settings request u source destination amount).Obeys lockFree.contract
      (fun _ _ => True) h := by
  unfold transferBatches
  apply obeys_bind_bind.mpr (lockFree_loadIn _)
  intro h debits
  apply obeys_bind_bind.mpr (lockFree_loadIn _)
  intro h credits
  rw [obeys_bind]
  refine obeys_result Rule.lenient fun debits _ => ?_
  rw [obeys_bind]
  exact obeys_result Rule.lenient fun credits _ => obeys_pure.mpr trivial

theorem lockFree_writeTransfer {u : UnitId} {debits credits : EntryBatch}
    {source destination : Account} :
    (writeTransfer u debits credits source destination).Obeys lockFree.contract (fun _ _ => True)
      h := by
  have hp {α : Type} {step : Step} : Passes (orInternal (α := α) step) := passes_orInternal step
  unfold writeTransfer
  apply obeys_bind_bind.mpr (lockFree_place hp _)
  intro h placed
  apply obeys_bind_bind.mpr (lockFree_place hp _)
  intro h placed
  apply obeys_bind_bind.mpr (obeys_handled hp trivial _)
  intro h written
  apply obeys_bind_bind.mpr (obeys_handled hp trivial _)
  intro h written
  exact obeys_handled hp trivial fun _ _ => trivial

/-- A transfer obeys a rule that binds only locks and lookups under locks if the locks do, and if the
rows that they bring allow the lookup. -/
theorem obeys_transfer_of_lockPair {P : Rule} (hfree : ∀ h c, lockFree h c → P h c)
    {settings : Settings} {request : Request} {source destination : AccountId} {amount : Amount}
    (hlocks : source ≠ destination → ∀ checked recorded opened u,
      (lockPair u source destination).Obeys P.contract
        (fun h rows => rows.1 ≠ none → rows.2 ≠ none →
          P h (.findByTransactionIn u request.transaction))
        [.read checked, .replied (.findByTransaction request.transaction) recorded,
          .replied .openUnit opened]) :
    (transfer settings request source destination amount).Obeys P.contract (fun _ _ => True) [] := by
  unfold transfer
  rw [obeys_bind]
  refine obeys_checkFresh (fun _ => Rule.lenient) fun checked _ => ?_
  apply obeys_bind_bind.mpr (obeys_unused (hfree _ _ trivial) _)
  intro recorded
  split
  · rw [obeys_bind]
    exact obeys_reject.mpr trivial
  rename_i hne
  rw [obeys_bind, obeys_ask]
  refine ⟨hfree _ _ trivial, ?_⟩
  intro opened
  rw [obeys_bind]
  refine (passes_orInternal _).obeys Rule.lenient fun u _ => ?_
  rw [obeys_bind]
  apply (hlocks hne checked recorded opened u).mono
  intro h rows hrows
  rw [obeys_bind]
  refine obeys_requireRow Rule.lenient fun a ha => ?_
  rw [obeys_bind]
  refine obeys_requireRow Rule.lenient fun c hc => ?_
  rw [obeys_bind, obeys_ask]
  refine ⟨hrows (by simp [ha]) (by simp [hc]), ?_⟩
  intro recorded
  rw [obeys_bind]
  refine obeys_checkUnused Rule.lenient ?_
  -- from here on nothing is locked and nothing is looked up under locks
  refine Obeys.weaken hfree ?_
  rw [obeys_bind, obeys_now]
  intro now
  rw [obeys_bind]
  refine obeys_result Rule.lenient fun debited _ => ?_
  rw [obeys_bind]
  refine obeys_result Rule.lenient fun credited _ => ?_
  rw [obeys_bind]
  exact lockFree_transferBatches.mono fun _ _ _ => lockFree_writeTransfer

end Workflow

/-- A rule that binds only locks and lookups under locks is obeyed if transfers obey it. -/
theorem Rule.obeyed_of_transfers {P : Command → Rule}
    (hfree : ∀ command h c, lockFree h c → P command h c)
    (htransfer : ∀ settings request source destination amount,
      (Workflow.transfer settings request source destination amount).Obeys
        (P (.transfer request source destination amount)).contract (fun _ _ => True) []) :
    Rule.Obeyed P := by
  intro settings command
  have hworkflow : (command.workflow settings).Obeys (P command).contract (fun _ _ => True) [] := by
    cases command with
    | create request account initial =>
      apply Workflow.obeys_map.mpr
      exact (Workflow.lockFree_create settings request account initial).weaken (hfree _)
    | transfer request source destination amount =>
      exact Workflow.obeys_map.mpr (htransfer settings request source destination amount)
    | get account =>
      apply Workflow.obeys_map.mpr
      exact (Workflow.lockFree_lookup account).weaken (hfree _)
  apply Program.Obeys.mono hworkflow
  intro h r _
  trivial

/-! ## The order of locks -/

namespace Workflow

variable {α : Type} {command : Command} {h : List Observation}

theorem obeys_lockedRow {u : UnitId} {id : AccountId} {Q : List Observation → Option Account → Prop}
    (hid : ∀ other ∈ asked h, other < id)
    (hQ : ∀ r : (Call.lockAccount u id).Reply, Q (h ++ [.replied (.lockAccount u id) r]) r.toOption) :
    Obeys (lockRule command).contract Q (do lockedRow (← ask (.lockAccount u id))) h := by
  rw [obeys_bind, obeys_ask]
  refine ⟨hid, ?_⟩
  intro r
  have hr := hQ r
  cases r with
  | ok a => exact obeys_pure.mpr hr
  | error e =>
    rw [lockedRow]
    split
    · exact obeys_pure.mpr hr
    · exact obeys_reject.mpr trivial

/-- The lower id is locked first, and the rows that are found are those of the locks. -/
theorem obeys_locks {u : UnitId} {low high : AccountId} (hlt : low < high) (hasked : asked h = [])
    {next : Option Account → Option Account → Workflow α} {Q : List Observation → α → Prop}
    (hnext : ∀ h lowRow highRow,
      (lowRow ≠ none → low ∈ (Knowledge.ofHistory command h).locked.map (·.1)) →
      (highRow ≠ none → high ∈ (Knowledge.ofHistory command h).locked.map (·.1)) →
      (next lowRow highRow).Obeys (lockRule command).contract Q h) :
    Obeys (lockRule command).contract Q (do
      let lowRow ← lockedRow (← ask (.lockAccount u low))
      let highRow ← lockedRow (← ask (.lockAccount u high))
      next lowRow highRow) h := by
  refine obeys_bind_bind.mpr (obeys_lockedRow (by simp [hasked]) fun r => ?_)
  have hfirst : asked (h ++ [.replied (.lockAccount u low) r]) = [low] := by
    rw [asked_concat, hasked]
    rfl
  refine obeys_bind_bind.mpr (obeys_lockedRow (by simpa [hfirst] using hlt) fun r' => ?_)
  apply hnext <;> cases r <;> cases r' <;>
    simp [-List.append_assoc, Knowledge.tell, Except.toOption]

theorem obeys_lockPair {u : UnitId} {source destination : AccountId} (hne : source ≠ destination)
    (hasked : asked h = []) {Q : List Observation → Option Account × Option Account → Prop}
    (hQ : ∀ h a c, (a ≠ none → source ∈ (Knowledge.ofHistory command h).locked.map (·.1)) →
      (c ≠ none → destination ∈ (Knowledge.ofHistory command h).locked.map (·.1)) → Q h (a, c)) :
    (lockPair u source destination).Obeys (lockRule command).contract Q h := by
  unfold lockPair
  split
  · rename_i hlt
    exact obeys_locks hlt hasked fun h a c ha hc => obeys_pure.mpr (hQ h a c ha hc)
  · rename_i hnot
    have hlt : destination < source := by
      rw [AccountId.lt_def] at hnot ⊢
      have hvalue : source.value ≠ destination.value := fun he => hne (AccountId.ext he)
      omega
    exact obeys_locks hlt hasked fun h c a hc ha => obeys_pure.mpr (hQ h a c ha hc)

theorem obeys_transfer (settings : Settings) (request : Request) (source destination : AccountId)
    (amount : Amount) :
    (transfer settings request source destination amount).Obeys
      (lockRule (.transfer request source destination amount)).contract (fun _ _ => True) [] := by
  apply obeys_transfer_of_lockPair (lockFree_imp_lockRule _)
  intro hne checked recorded opened u
  refine obeys_lockPair hne rfl fun h a c hs hd ha hc => ?_
  intro id hid
  simp only [Command.accounts, List.mem_cons, List.not_mem_nil, or_false] at hid
  rcases hid with rfl | rfl
  · exact hs ha
  · exact hd hc

end Workflow

theorem lockRule_obeyed : Rule.Obeyed lockRule :=
  Rule.obeyed_of_transfers lockFree_imp_lockRule Workflow.obeys_transfer

end Bookkeeping
