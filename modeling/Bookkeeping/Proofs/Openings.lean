import Bookkeeping.Proofs.DoubleEntry
import Bookkeeping.Proofs.Solo
import Bookkeeping.Proofs.Streams

/-! # Openings that compete

An opening makes eight steps. On a store without faults, if its time is fresh and nobody else uses its
transaction, it ends in one of two ways: it succeeds, or something that it was told shows that the
account exists, and it fails for that reason, wherever it was stopped.
-/
namespace Bookkeeping
open Bookkeeping.Time

def Request.openingDrafts (settings : Settings) (request : Request) (id : AccountId)
    (initial : Amount) : List Draft :=
  [request.draft settings id .first (.opened initial),
    request.draft settings id .second (.deposited Workflow.systemSource initial)]

namespace Observation

/-- What an opening is told on a store without faults, at a fresh time, and if nothing is recorded of
its transaction. -/
def Expected (settings : Settings) (request : Request) : Observation → Prop
  | .read now => Workflow.Fresh settings request now
  | .replied (.findAccount _) r => ∀ e, r = .error e → e.isNotFound = true
  | .replied (.findByTransaction _) r => r = .ok []
  | .replied (.findLast _) r =>
    (∀ e, r = .error e → e.isNotFound = true) ∧ ∀ e, r = .ok e → e.sequence ≠ .initial
  | .replied .openUnit r => ∃ u, r = .ok u
  | .replied (.append ..) r => ∀ e, r = .error e → e.isConflict = true
  | .replied (.upsertAccount ..) r => r = .ok ()
  | .replied (.commit _) r => ∀ e, r = .error e → e.isConflict = true
  | .replied _ _ => True

def showsExisting : Observation → Bool
  | .replied (.findAccount _) (.ok _) | .replied (.findLast _) (.ok _) => true
  | .replied (.append ..) (.error _) | .replied (.commit _) (.error _) => true
  | _ => false

end Observation

def Request.OpeningCall (settings : Settings) (request : Request) (id : AccountId)
    (initial : Amount) (h : List Observation) : Call → Prop
  | .findAccount x | .findLast x => x = id
  | .findByTransaction t => t = request.transaction
  | .openUnit | .upsertAccount .. => True
  | .append _ drafts =>
    drafts = request.openingDrafts settings id initial ∧
      (Knowledge.ofHistory (.create request id initial) h).drafts = []
  | .commit _ =>
    (Knowledge.ofHistory (.create request id initial) h).drafts =
      request.openingDrafts settings id initial
  | .lockAccount .. | .findByTransactionIn .. | .findLastIn .. | .rollback _ => False

namespace Workflow

/-- An opening fails because the account exists. -/
def FailsExisting (id : AccountId) (h : List Observation) (why : Failure) : Prop :=
  why = .rejected (.alreadyExists id) ∧ ∃ o ∈ h, o.showsExisting = true

end Workflow

/-- An opening that is told what is expected ends after at most eight steps. -/
abbrev Contract.opening (settings : Settings) (request : Request) (id : AccountId)
    (initial : Amount) : Contract (List Observation) where
  tell h o := h ++ [o]
  onCall h c P := h.length < 8 ∧ request.OpeningCall settings id initial h c ∧
    ∀ r, (Observation.replied c r).Expected settings request → P r
  onClock h P := h.length < 8 ∧ ∀ t, (Observation.read t).Expected settings request → P t
  fails := Workflow.FailsExisting id
  onCall_mono hPQ h := ⟨h.1, h.2.1, fun r hr => hPQ r (h.2.2 r hr)⟩
  onClock_mono hPQ h := ⟨h.1, fun t ht => hPQ t (h.2 t ht)⟩

theorem Program.Obeys.length_lt {α : Type} {settings : Settings} {request : Request}
    {id : AccountId} {initial : Amount} {Q : List Observation → α → Prop} {h : List Observation}
    {p : Program α} (hp : p.Obeys (.opening settings request id initial) Q h)
    (hdone : ∀ a, p ≠ .done a) : h.length < 8 := by
  cases p with
  | done a => exact absurd rfl (hdone a)
  | call c next => exact hp.1
  | clock next => exact hp.1

namespace Workflow

variable {α : Type} {Q : List Observation → α → Prop} {h : List Observation}
  {settings : Settings} {request : Request} {id : AccountId} {initial : Amount}

theorem opening_orExists {step : Step} {r : Except StoreError α} (hQ : ∀ a, r = .ok a → Q h a)
    (hR : ∀ e, r = .error e → e.isConflict = true ∧ ∃ o ∈ h, o.showsExisting = true) :
    Obeys (.opening settings request id initial) Q (orExists id step r) h := by
  cases r with
  | ok a => exact hQ a rfl
  | error e =>
    obtain ⟨hconflict, hshown⟩ := hR e rfl
    rw [orExists, if_pos hconflict]
    exact ⟨rfl, hshown⟩

theorem opening_writeOpening {batch : EntryBatch} {now : Instant}
    (hbatch : batch.pending = request.openingDrafts settings id initial) (hlength : h.length = 4) :
    (writeOpening batch (.opened id initial now)).Obeys (.opening settings request id initial)
      (fun _ _ => True) h := by
  have hne : batch.pending ≠ [] := by simp [hbatch, Request.openingDrafts]
  rw [writeOpening, obeys_bind, obeys_ask]
  refine ⟨by omega, trivial, ?_⟩
  rintro _ ⟨u, rfl⟩
  rw [obeys_bind, orInternal, obeys_pure]
  refine obeys_bind_bind.mpr ((obeys_place hne).mpr ?_)
  refine ⟨by simp [hlength], ⟨hbatch, ?_⟩, ?_⟩
  · rw [Knowledge.ofHistory_concat]
    rfl
  intro placed hplaced
  cases placed with
  | error e =>
    refine opening_orExists (fun a ha => by cases ha) fun e' he' => ?_
    cases he'
    exact ⟨hplaced e rfl, .replied (.append u batch.pending) (.error e), by simp, rfl⟩
  | ok x =>
    rw [Except.map, orExists, obeys_pure, obeys_bind, obeys_ask]
    refine ⟨by simp [hlength], trivial, ?_⟩
    rintro _ rfl
    rw [orExists, obeys_bind, obeys_pure, obeys_bind, obeys_ask]
    refine ⟨by simp [hlength], ?_, ?_⟩
    · simp only [Request.OpeningCall, Knowledge.ofHistory_concat, ← hbatch]
      rfl
    · intro committed hcommitted
      refine opening_orExists (fun _ _ => trivial) fun e he => ?_
      subst he
      exact ⟨hcommitted e rfl, .replied (.commit u) (.error e), by simp, rfl⟩

theorem opening_create (settings : Settings) (request : Request) (id : AccountId)
    (initial : Amount) :
    (create settings request id initial).Obeys (.opening settings request id initial)
      (fun _ a => ∃ now, a = .opened id initial now) [] := by
  unfold create
  rw [obeys_bind, checkFresh, obeys_bind, obeys_now]
  refine ⟨by simp, ?_⟩
  intro now hfresh
  have hfresh : Fresh settings request now := hfresh
  rw [if_pos hfresh, obeys_pure, obeys_bind, obeys_ask]
  refine ⟨by simp, rfl, ?_⟩
  intro found hfound
  rw [obeys_bind]
  cases found with
  | ok a => exact ⟨rfl, .replied (.findAccount id) (.ok a), by simp, rfl⟩
  | error e =>
    have hnone : e.isNotFound = true := hfound e rfl
    rw [checkAbsent, if_pos hnone, obeys_pure, obeys_bind, obeys_ask]
    refine ⟨by simp, rfl, ?_⟩
    intro recorded hrecorded
    cases hrecorded
    rw [obeys_bind, checkUnused, obeys_pure]
    refine obeys_bind_bind.mpr (obeys_load.mpr ⟨by simp, rfl, ?_⟩)
    intro last hlast
    cases last with
    | ok e' =>
      have hne : e'.sequence ≠ .initial := hlast.2 e' rfl
      rw [EntryBatch.lastSequence, Except.map, orInternal, obeys_pure]
      split
      · exact ⟨rfl, .replied (.findLast id) (.ok e'), by simp, rfl⟩
      · rename_i hsame
        exact absurd hne hsame
    | error e' =>
      have hnone' : e'.isNotFound = true := hlast.1 e' rfl
      rw [EntryBatch.lastSequence, if_pos hnone', Except.map, orInternal, obeys_pure]
      split
      · rename_i hne
        exact absurd rfl hne
      · obtain ⟨batch, hbatch, hpending⟩ :=
          update_recordOpening settings request id initial now rfl
        rw [obeys_bind, hbatch, obeys_ofResult, Contract.Fits]
        refine obeys_bind.mpr ((opening_writeOpening hpending (by simp)).mono ?_)
        exact fun _ _ _ => ⟨now, rfl⟩

end Workflow

def Command.EndsOpening (id : AccountId) (initial : Amount) (h : List Observation) :
    Except Failure Answer → Prop
  | .ok a => ∃ now, a = .account (.opened id initial now)
  | .error why => Workflow.FailsExisting id h why

theorem Command.opening_program (settings : Settings) (request : Request) (id : AccountId)
    (initial : Amount) :
    (Command.program settings (.create request id initial)).Obeys
      (.opening settings request id initial) (EndsOpening id initial) [] := by
  have hobeys : Workflow.Obeys (.opening settings request id initial)
      (fun _ a => ∃ now, a = .account (.opened id initial now))
      ((Command.create request id initial).workflow settings) [] := by
    apply Workflow.obeys_map.mpr
    apply (Workflow.opening_create settings request id initial).mono
    rintro h a ⟨now, rfl⟩
    exact ⟨now, rfl⟩
  apply Program.Obeys.mono hobeys
  intro h r hr
  cases r <;> exact hr

/-! ## What a store without faults tells an opening -/

namespace Store

variable {s s' : Store} {id : AccountId} {u : UnitId}

theorem row_ne_none_of_taken (hk : s.book.Kept) {key : AccountId × SequenceNumber}
    (h : s.Taken key) : s.book.row key.1 ≠ none := by
  obtain ⟨e, he, rfl⟩ := h
  apply row_ne_none hk (x := e)
  rw [entriesFor_eq_filter hk]
  exact List.mem_filter.mpr ⟨he, by simp [Entry.key, Draft.key]⟩

theorem exists_of_lastOf (hk : s.book.Kept) {e : Entry} (h : lastOf id s.entries = some e) :
    s.book.row id ≠ none ∧ e.sequence ≠ .initial := by
  rw [lastOf_eq_getLast? hk] at h
  have hmem := List.mem_of_getLast? h
  refine ⟨row_ne_none hk hmem, ?_⟩
  intro hinitial
  have hnumber : e.sequence.value ∈ (s.entriesFor id).map (·.sequence.value) :=
    List.mem_map_of_mem hmem
  rw [map_sequence_entriesFor hk, List.mem_range'_1, hinitial] at hnumber
  exact absurd hnumber.1 (by decide)

theorem fits_openingDrafts (hk : s.book.Kept) (hnone : s.book.row id = none) (settings : Settings)
    (request : Request) (initial : Amount) :
    s.Fits (request.openingDrafts settings id initial) := by
  refine ⟨by simp [Request.openingDrafts, Draft.key, Request.draft, SequenceNumber.first,
    SequenceNumber.second], ?_⟩
  intro d hd htaken
  have hacc : d.key.1 = id := by
    simp only [Request.openingDrafts, List.mem_cons, List.not_mem_nil, or_false] at hd
    rcases hd with rfl | rfl <;> rfl
  have hrow := row_ne_none_of_taken hk htaken
  rw [hacc] at hrow
  exact hrow hnone

theorem append_of_fits {drafts : List Draft}
    (h : s.Fits ((s.unit u).entries.map (·.toDraft) ++ drafts)) : (s.append u drafts).1 = .ok () := by
  have hfits : s.Fits ((s.unit u).entries.map (·.toDraft) ++ ([] : List Entry).map (·.toDraft) ++
      drafts) := by simpa using h
  obtain ⟨staged, key, hstage⟩ := hfits.stage s.lastKey
  rw [append, hstage]

theorem commit_of_fits (h : s.Fits ((s.unit u).entries.map (·.toDraft))) :
    (s.commit u).1 = .ok () := by
  rw [commit, if_pos h.committable]

theorem isConflict_of_append {drafts : List Draft} {e : StoreError}
    (h : (s.append u drafts).1 = .error e) : e.isConflict = true := by
  rcases s.append_cases u drafts with ⟨_, _, -, he⟩ | ⟨_, he⟩ <;> rw [he] at h <;> cases h
  rfl

theorem isConflict_of_commit {e : StoreError} (h : (s.commit u).1 = .error e) :
    e.isConflict = true := by
  rcases s.commit_cases u with ⟨-, he⟩ | he <;> rw [he] at h <;> cases h
  rfl

end Store

/-- What an opening is told on a store without faults is to be expected, and it shows the account only
if the account exists. -/
theorem Store.expected_of_respond {s s' : Store} {settings : Settings} {request : Request}
    {id : AccountId} {initial : Amount} {h : List Observation} {c : Call} {r : c.Reply}
    (hk : s.book.Kept) (hunused : ∀ e ∈ s.entries, e.transaction ≠ request.transaction)
    (hpermits : (Knowledge.ofHistory (.create request id initial) h).Permits c)
    (hstands : ∀ u, (Knowledge.ofHistory (.create request id initial) h).unit = some u →
      (Knowledge.ofHistory (.create request id initial) h).Stands u s)
    (hasks : request.OpeningCall settings id initial h c)
    (hr : s.respond c = .replied r s') :
    (Observation.replied c r).Expected settings request ∧
      ((Observation.replied c r).showsExisting = true → s.book.row id ≠ none) := by
  cases c with
  | findAccount x =>
    cases hr
    cases hasks
    have hrow : s.book.row id = findRow id s.rows := rfl
    rw [hrow]
    cases findRow id s.rows with
    | some a => exact ⟨fun e he => (by cases he), fun _ => Option.some_ne_none a⟩
    | none => exact ⟨fun e he => by cases he; rfl, fun hs => by cases hs⟩
  | findByTransaction x =>
    cases hr
    cases hasks
    have hnil : entriesOf request.transaction s.entries = [] := by
      apply List.eq_nil_iff_forall_not_mem.mpr
      intro e he
      obtain ⟨hmem, htx⟩ := mem_entriesOf.mp he
      exact hunused e hmem htx
    rw [hnil]
    exact ⟨rfl, fun hs => by cases hs⟩
  | findLast x =>
    cases hr
    cases hasks
    cases hlast : lastOf id s.entries with
    | some e =>
      obtain ⟨hrow, hnumber⟩ := exists_of_lastOf hk hlast
      exact ⟨⟨fun e he => (by cases he), fun e' he' => by cases he'; exact hnumber⟩, fun _ => hrow⟩
    | none => exact ⟨⟨fun e he => by cases he; rfl, fun e he => by cases he⟩, fun hs => by cases hs⟩
  | openUnit =>
    cases hr
    exact ⟨⟨_, rfl⟩, fun hs => by cases hs⟩
  | upsertAccount u a =>
    cases hr
    exact ⟨rfl, fun hs => by cases hs⟩
  | append u drafts =>
    obtain ⟨rfl, hempty⟩ := hasks
    have hwritten := (hstands u hpermits.2).drafts
    rw [hempty] at hwritten
    cases hr
    refine ⟨fun e he => isConflict_of_append he, fun hshown hnone => ?_⟩
    have hfits := fits_openingDrafts hk hnone settings request initial
    rw [append_of_fits (by rwa [hwritten, List.nil_append])] at hshown
    cases hshown
  | commit u =>
    have hwritten := (hstands u hpermits.2).drafts
    rw [show (Knowledge.ofHistory _ h).drafts = _ from hasks] at hwritten
    cases hr
    refine ⟨fun e he => isConflict_of_commit he, fun hshown hnone => ?_⟩
    have hfits := fits_openingDrafts hk hnone settings request initial
    rw [commit_of_fits (by rwa [hwritten])] at hshown
    cases hshown
  | _ => exact hasks.elim

end Bookkeeping
