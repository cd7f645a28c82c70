import Bookkeeping.Proofs.Overflow
import Bookkeeping.Proofs.Sequences

/-! # The gates of a transfer

A transfer tries its gates one after the other and fails at the first one that is shut. If all of them
are open, it moves the amount, and nothing else changes.
-/
namespace Bookkeeping
open Bookkeeping.Time

def gate (shut : Prop) [Decidable shut] (e : LedgerError) : Option LedgerError :=
  if shut then some e else none

/-- What the first of some gates says that is shut. -/
def firstShut (gates : List (Option LedgerError)) : Option LedgerError := gates.findSome? id

@[simp] theorem firstShut_nil : firstShut [] = none := rfl

@[simp] theorem firstShut_gate (shut : Prop) [Decidable shut] (e : LedgerError)
    (rest : List (Option LedgerError)) :
    firstShut (gate shut e :: rest) = if shut then some e else firstShut rest := by
  unfold firstShut gate
  split <;> simp

/-- Away from leap seconds, freshness is a distance in nanoseconds that goes up to the threshold and
includes it. -/
theorem Workflow.fresh_iff {settings : Settings} {request : Request} {now : Instant}
    (hnow : now.nanos < Instant.nanosPerSecond)
    (hrequest : request.time.nanos < Instant.nanosPerSecond) :
    Fresh settings request now ↔
      (now.toNanos - request.time.toNanos).natAbs ≤ settings.threshold.duration.nanos := by
  have hle : request.time ≤ now ↔ request.time.toNanos ≤ now.toNanos := by
    unfold Instant.toNanos
    unfold Instant.nanosPerSecond at *
    constructor
    · rintro (h | ⟨h, h'⟩) <;> omega
    · intro h
      by_cases heq : request.time.seconds = now.seconds
      · exact .inr ⟨heq, by omega⟩
      · exact .inl (by omega)
  have hsince := Instant.since_eq hnow hrequest
  have hsince' := Instant.since_eq hrequest hnow
  unfold Fresh skew
  split <;> rename_i h <;> rw [hle] at h <;> omega

namespace Book

def transferGates (b : Book) (settings : Settings) (request : Request)
    (source destination : AccountId) (amount : Amount) (checked : Instant) :
    List (Option LedgerError) :=
  [gate (¬Workflow.Fresh settings request checked)
      (.invalidRequestTime request.time checked settings.threshold.duration),
    gate (b.Records request.transaction) (.alreadyRecorded request.transaction),
    gate (source = destination) (.sameAccount source),
    gate (b.row source = none) (.sourceNotFound source),
    gate (b.row destination = none) (.destinationNotFound destination),
    (b.row source).bind fun a =>
      gate (¬a.Covers amount) (.insufficientBalance source a.balance amount)]

variable {b : Book} {settings : Settings} {request : Request} {source destination : AccountId}
  {amount : Amount} {checked now : Instant} {e : LedgerError}

theorem admits_of_open (h : firstShut
    (b.transferGates settings request source destination amount checked) = none) :
    ∃ a c, b.Admits settings checked request source destination a c ∧ a.Covers amount := by
  simp only [transferGates, firstShut_gate] at h
  split_ifs at h with hfresh hrecorded hsame hsource hdestination
  obtain ⟨a, ha⟩ := Option.ne_none_iff_exists'.mp hsource
  obtain ⟨c, hc⟩ := Option.ne_none_iff_exists'.mp hdestination
  rw [ha, Option.bind_some, firstShut_gate] at h
  split_ifs at h with hcovers
  exact ⟨a, c, ⟨hfresh, hrecorded, hsame, ha, hc⟩, hcovers⟩

theorem judge_of_shut (h : firstShut
    (b.transferGates settings request source destination amount checked) = some e) :
    Command.judge settings checked now b (.transfer request source destination amount) =
      .error (.rejected e) := by
  simp only [transferGates, firstShut_gate] at h
  rw [Command.judge]
  by_cases hfresh : Workflow.Fresh settings request checked
  swap
  · rw [if_pos hfresh] at h ⊢
    cases h
    rfl
  rw [if_neg (not_not.mpr hfresh)] at h ⊢
  split_ifs at h with hrecorded hsame hsource hdestination
  · cases h
    rw [if_pos hrecorded]
  all_goals rw [if_neg hrecorded]
  · cases h
    rw [if_pos hsame]
  all_goals rw [if_neg hsame]
  · cases h
    rw [require_eq_error_iff.mpr ⟨hsource, rfl⟩]
    rfl
  all_goals
    obtain ⟨a, ha⟩ := Option.ne_none_iff_exists'.mp hsource
    rw [require_eq_ok_iff.mpr ha]
  · cases h
    rw [require_eq_error_iff.mpr ⟨hdestination, rfl⟩]
    rfl
  · obtain ⟨c, hc⟩ := Option.ne_none_iff_exists'.mp hdestination
    rw [require_eq_ok_iff.mpr hc]
    simp only [ha, Option.bind_some, firstShut_gate, firstShut_nil] at h
    split_ifs at h with hcovers
    change b.move settings request source destination amount now a c = _
    refine bind_eq_error_iff.mpr (.inl (Account.debit_eq_error_iff.mpr ⟨hcovers, ?_⟩))
    cases h
    rw [row_id ha]

end Book

/-! ## What a transfer changes -/

namespace Store

/-- A store after an amount was moved at a time between two accounts that had these rows. -/
structure Moved (s s' : Store) (settings : Settings) (request : Request)
    (source destination : AccountId) (amount : Amount) (now : Instant) (a c : Account) : Prop where
  source_row : ∃ a', a.debited amount now = .ok a' ∧ a'.createdAt = a.createdAt ∧
    a'.updatedAt = now ∧ findRow source s'.rows = some a'
  destination_row : ∃ c', c.credited amount now = .ok c' ∧ c'.createdAt = c.createdAt ∧
    c'.updatedAt = now ∧ findRow destination s'.rows = some c'
  entries : ∃ (n m : SequenceNumber) (debited credited : Entry),
    n.value = (s.entriesFor source).length + 1 ∧
    m.value = (s.entriesFor destination).length + 1 ∧
    debited.toDraft = request.draft settings source n (.debited destination amount) ∧
    credited.toDraft = request.draft settings destination m (.credited source amount) ∧
    s'.entries = s.entries ++ [debited, credited] ∧
    s'.entriesFor source = s.entriesFor source ++ [debited] ∧
    s'.entriesFor destination = s.entriesFor destination ++ [credited]
  others : ∀ other, other ≠ source → other ≠ destination →
    findRow other s'.rows = findRow other s.rows ∧ s'.entriesFor other = s.entriesFor other

variable {s s' : Store} {settings : Settings} {request : Request} {source destination : AccountId}
  {amount : Amount} {checked now : Instant} {a c : Account} {p : Posting}

theorem next_value (hk : s.book.Kept) {id : AccountId} {n : SequenceNumber}
    (hn : s.book.nextNumber id = .ok n) : n.value = (s.entriesFor id).length + 1 := by
  have hvalue := SequenceNumber.next?_eq_some_iff.mp (Book.nextNumber_eq_ok_iff.mp hn)
  rw [hk.lastNumber_value, ← map_toDraft_entriesFor hk, List.length_map] at hvalue
  exact hvalue

theorem moved_of_post (hk : s.book.Kept)
    (hadmits : s.book.Admits settings checked request source destination a c)
    (hmove : s.book.move settings request source destination amount now a c = .ok p)
    {new : List Entry} (hentries : s'.entries = s.entries ++ new) (hbook : s'.book = s.book.post p)
    (hk' : s'.book.Kept) : s.Moved s' settings request source destination amount now a c := by
  obtain ⟨a', hdebit, c', hcredit, n, hn, m, hm, rfl⟩ := Book.move_eq_ok_iff.mp hmove
  have hnew : new.map (·.toDraft) =
      [request.draft settings source n (.debited destination amount),
        request.draft settings destination m (.credited source amount)] := by
    have hdrafts := congrArg Book.drafts hbook
    simp only [book, Book.post, hentries, List.map_append] at hdrafts
    exact List.append_cancel_left hdrafts
  obtain ⟨debited, credited, rfl, hdebited, hcredited⟩ := exists_pair hnew
  have hda := (Account.debit_id hdebit).trans (Book.row_id hadmits.source_row)
  have hca := (Account.credit_id hcredit).trans (Book.row_id hadmits.destination_row)
  have hrow (id : AccountId) : findRow id s'.rows = if destination = id then some c'
      else if source = id then some a' else findRow id s.rows := by
    have hpost := Book.row_post_movement s.book settings request amount hda hca n m id
    rw [← hbook] at hpost
    exact hpost
  have hstream := entriesFor_append hk hk' hentries
  have hsource : debited.account = source := congrArg Draft.account hdebited
  have hdestination : credited.account = destination := congrArg Draft.account hcredited
  have hne := hadmits.ne
  constructor
  · refine ⟨a', hdebit, Account.debit_createdAt hdebit, Account.debit_updatedAt hdebit, ?_⟩
    rw [hrow, if_neg (Ne.symm hne), if_pos rfl]
  · refine ⟨c', hcredit, Account.credit_createdAt hcredit, Account.credit_updatedAt hcredit, ?_⟩
    rw [hrow, if_pos rfl]
  · refine ⟨n, m, debited, credited, next_value hk hn, next_value hk hm, hdebited, hcredited,
      hentries, ?_, ?_⟩
    · rw [hstream]
      simp [hsource, hdestination, Ne.symm hne]
    · rw [hstream]
      simp [hsource, hdestination, hne]
  · intro other hs hd
    constructor
    · rw [hrow, if_neg (Ne.symm hd), if_neg (Ne.symm hs)]
    · rw [hstream]
      simp [hsource, hdestination, Ne.symm hs, Ne.symm hd]

/-! ## Transfers after other commands -/

theorem length_serveAll (h : s.Ready) (vs : List Visit) :
    (s.serveAll vs).2.entries.length ≤ s.entries.length + 2 * vs.length := by
  induction vs generalizing s with
  | nil => exact Nat.le_refl _
  | cons v rest ih =>
    obtain ⟨new, hentries, hlength⟩ := Backend.exists_new (b := ⟨s, {}⟩) h v
    have hserve : (s.serve v).2.entries = s.entries ++ new := hentries
    have hrest := ih (h.serve v)
    rw [hserve, List.length_append] at hrest
    rw [serveAll, List.length_cons]
    dsimp only
    omega

theorem le_of_isFull {vs : List Visit} {id : AccountId}
    (h : (serveAll {} vs).2.book.IsFull id) : 2 ^ 63 ≤ vs.length := by
  have hle := length_serveAll ready_empty vs
  have hstream : ((serveAll {} vs).2.book.stream id).length ≤
      (serveAll {} vs).2.entries.length := by
    rw [stream_book, List.length_map]
    exact List.length_filter_le _ _
  unfold Book.IsFull at h
  simp only [List.length_nil] at hle
  omega

/-- After any commands, a transfer fails at its first gate that is shut and changes nothing. If all
gates are open and the amount fits into the destination, the transfer moves it and succeeds, unless a
stream has got all its numbers. In any case no unit of work stays open. The gate of the time is open up
to the threshold in either direction, to the nanosecond; only around leap seconds it counts otherwise. -/
theorem transfer_by_gates (vs : List Visit) (settings : Settings) (clock : Clock)
    (request : Request) (source destination : AccountId) (amount : Amount) :
    let s := (serveAll {} vs).2
    let v : Visit := ⟨settings, .transfer request source destination amount, clock⟩
    (s.serve v).2.Quiet ∧
    (clock.next.nanos < Instant.nanosPerSecond → request.time.nanos < Instant.nanosPerSecond →
      (Workflow.Fresh settings request clock.next ↔
        (clock.next.toNanos - request.time.toNanos).natAbs ≤ settings.threshold.duration.nanos)) ∧
    match firstShut
      (s.book.transferGates settings request source destination amount clock.next) with
    | some e => (s.serve v).1 = some (.failed (.rejected e)) ∧ s.Same (s.serve v).2
    | none => ∃ a c, findRow source s.rows = some a ∧ findRow destination s.rows = some c ∧
        (¬c.Overfills amount →
          ((s.serve v).1 = some (.answered .transferred) ∧
            s.Moved (s.serve v).2 settings request source destination amount clock.read.2.next
              a c) ∨
          (2 ^ 63 ≤ vs.length ∧ (s.serve v).1 = some (.failed (.overflow .sequence)) ∧
            s.Same (s.serve v).2)) := by
  intro s v
  have hready : s.Ready := ready_empty.serveAll vs
  have hkept := hready.reached.kept
  obtain ⟨houtcome, hquiet, hbook⟩ := hready.serve_eq v
  refine ⟨hquiet, Workflow.fresh_iff, ?_⟩
  have hfails {why : Failure} (hjudge : v.judge s.book = .error why) :
      (s.serve v).1 = some (.failed why) ∧ s.Same (s.serve v).2 := by
    have hfailed : (s.serve v).1 = some (.failed why) := by
      rw [houtcome, hjudge]
      rfl
    refine ⟨hfailed, Backend.serve_same (b := ⟨s, {}⟩) hready fun answer hanswer => ?_⟩
    cases hfailed.symm.trans hanswer
  split
  · rename_i e hshut
    exact hfails (Book.judge_of_shut hshut)
  · rename_i hopen
    obtain ⟨a, c, hadmits, hcovers⟩ := Book.admits_of_open hopen
    refine ⟨a, c, hadmits.source_row, hadmits.destination_row, fun hfits => ?_⟩
    have hjudge : v.judge s.book = s.book.move settings request source destination amount
      clock.read.2.next a c := hadmits.judge_eq
    cases hmove : s.book.move settings request source destination amount clock.read.2.next a c with
    | error why =>
      rw [hmove] at hjudge
      right
      rcases hkept.move_eq_error_iff.mp hmove with ⟨hnot, -⟩ | ⟨-, hover, -⟩ | ⟨-, -, hfull, rfl⟩
      · exact absurd hcovers hnot
      · exact absurd hover hfits
      · exact ⟨hfull.elim le_of_isFull le_of_isFull, hfails hjudge⟩
    | ok p =>
      rw [hmove] at hjudge
      left
      obtain ⟨new, hentries, -⟩ := Backend.exists_new (b := ⟨s, {}⟩) hready v
      have hpost : (s.serve v).2.book = s.book.post p := by
        rw [hbook, hjudge]
        rfl
      refine ⟨?_, moved_of_post hkept hadmits hmove hentries hpost (hready.serve v).reached.kept⟩
      obtain ⟨a', -, c', -, n, -, m, -, rfl⟩ := Book.move_eq_ok_iff.mp hmove
      rw [houtcome, hjudge]
      rfl

end Store

end Bookkeeping
