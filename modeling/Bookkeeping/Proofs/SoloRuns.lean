import Bookkeeping.Proofs.Solo

/-! # What turns give

A command that has a quiet store to itself adds to it just the posting that it may add to the book,
and succeeds with the answer of this posting, as long as its transaction is not recorded yet.
-/
namespace Bookkeeping
open Bookkeeping.Time

namespace Store

variable {s : Store} {id : AccountId}

theorem laterEntry_ne_none {es : List Entry} {e : Entry} : es.foldl laterEntry (some e) ≠ none := by
  induction es generalizing e with
  | nil => simp
  | cons x rest ih =>
    rw [List.foldl_cons, laterEntry]
    split <;> exact ih

theorem lastSequence_lastOf (s : Store) (id : AccountId) :
    EntryBatch.lastSequence (foundOr "event" (lastOf id s.entries)) =
      .ok (s.book.lastNumber id) := by
  cases h : lastOf id s.entries with
  | some e => rw [lastNumber_of_lastOf h]; rfl
  | none =>
    have hnil : (s.entries.filter fun e => e.account = id) = [] := by
      unfold lastOf at h
      cases hes : s.entries.filter fun e => e.account = id with
      | nil => rfl
      | cons x rest =>
        rw [hes] at h
        exact absurd h laterEntry_ne_none
    rw [Book.lastNumber, stream_book, hnil]
    rfl

theorem entriesOf_eq_nil {t : TransactionId} (h : ∀ d ∈ s.book.drafts, d.transaction ≠ t) :
    entriesOf t s.entries = [] := by
  have hnil : (s.entries.filter fun e => e.transaction = t) = [] := by
    rw [List.filter_eq_nil_iff]
    intro e he
    simpa using h _ (List.mem_map_of_mem he)
  rw [entriesOf, hnil, List.mergeSort_nil]

theorem not_taken_next (hk : s.book.Kept) {d : Draft}
    (hnext : (s.book.lastNumber d.account).next? = some d.sequence) : ¬s.Taken d.key := by
  rintro ⟨e, he, hkey⟩
  have hacc : e.account = d.account := congrArg Prod.fst hkey
  have hseq : e.sequence = d.sequence := congrArg Prod.snd hkey
  have hmem : e.sequence.value ∈ (s.book.stream d.account).map (·.sequence.value) := by
    rw [stream_book, List.map_map]
    exact List.mem_map_of_mem (f := fun e : Entry => e.sequence.value)
      (List.mem_filter.mpr ⟨he, by simpa using hacc⟩)
  rw [hk.numbers, List.mem_range'_1] at hmem
  have hval := SequenceNumber.next?_eq_some_iff.mp hnext
  rw [hk.lastNumber_value] at hval
  rw [hseq] at hmem
  omega

theorem not_taken_of_stream_nil {d : Draft} (h : s.book.stream d.account = []) :
    ¬s.Taken d.key := by
  rintro ⟨e, he, hkey⟩
  have hacc : e.account = d.account := congrArg Prod.fst hkey
  rw [stream_book, List.map_eq_nil_iff, List.filter_eq_nil_iff] at h
  exact h e he (by simpa using hacc)

end Store

theorem Command.Posts.fits {settings : Settings} {command : Command} {readings : List Instant}
    {s : Store} {p : Posting} (h : command.Posts settings readings s.book p) (hk : s.book.Kept) :
    s.Fits p.drafts := by
  cases h with
  | opening _ _ hnil =>
    refine ⟨?_, fun d hd => Store.not_taken_of_stream_nil ?_⟩
    · simp [Posting.opening, Draft.key, Request.draft, SequenceNumber.first, SequenceNumber.second]
    · simp only [Posting.opening, List.mem_cons, List.not_mem_nil, or_false] at hd
      rcases hd with rfl | rfl <;> exact hnil
  | movement _ hne _ _ _ _ hn hm =>
    refine ⟨?_, fun d hd => Store.not_taken_next hk ?_⟩
    · simp [Posting.movement, Draft.key, Request.draft, hne]
    · simp only [Posting.movement, List.mem_cons, List.not_mem_nil, or_false] at hd
      rcases hd with rfl | rfl
      · exact hn
      · exact hm

/-- A program has left a quiet store with this book, and looked at the clock as often as expected. -/
structure Solo.Leaves (s : Solo) (b : Book) : Prop where
  readings : s.readings = []
  quiet : s.leave.Quiet
  book : s.leave.book = b

namespace Workflow

variable {settings : Settings} {request : Request} {s : Solo}

theorem gives_checkFresh {t : Instant} {rest : List Instant} (hr : s.readings = t :: rest)
    (hf : Fresh settings request t) :
    (checkFresh settings request).Gives s t { s with readings := rest } := by
  refine .bind (.now hr) ?_
  rw [if_pos hf]
  exact .pure t _

theorem gives_checkUnused {t : TransactionId} (step : Step)
    (h : entriesOf t s.store.entries = []) :
    Gives (do checkUnused t step (← ask (.findByTransaction t))) s () s := by
  have hr : s.store.respond (.findByTransaction t) = .replied (.ok []) s.store := by
    rw [Store.respond, h]
  have hcheck : (checkUnused t step (.ok [])).Gives s () s := .pure () s
  exact .bind (.ask hr) hcheck

theorem gives_load {id : AccountId} {t : TransactionId} {version : SchemaVersion} (step : Step) :
    Gives (do orInternal step (← perform (EntryBatch.load id t version))) s
      (.startingAt id t version (s.store.book.lastNumber id)) s := by
  have hload : EntryBatch.load id t version = .call (.findLast id) fun last =>
      .done ((EntryBatch.lastSequence last).map (.startingAt id t version)) := rfl
  have hr : s.store.respond (.findLast id) =
      .replied (foundOr "event" (lastOf id s.store.entries)) s.store := rfl
  rw [hload]
  refine .bind (a := .ok (.startingAt id t version (s.store.book.lastNumber id)))
    (.call hr ?_) (.pure _ s)
  rw [Store.lastSequence_lastOf]
  rfl

/-! ### Steps in the only unit of work

The last argument of a solo state is the unit of work of its program. -/

variable {base : Store} {u : UnitId} {w : WorkUnit} {readings : List Instant}

theorem gives_openUnit (step : Step) (hq : base.Quiet) :
    Gives (do orInternal step (← ask .openUnit)) ⟨base, readings, none⟩ ⟨base.opened⟩
      ⟨{ base with opened := base.opened + 1 }.holding ⟨base.opened⟩ {}, readings,
        some ⟨base.opened⟩⟩ :=
  .bind (.ask (Store.respond_openUnit hq)) (.pure _ _)

variable (base u w readings) in
theorem gives_place {batch : EntryBatch}
    {handle : Except StoreError Nat → Workflow Nat} (h : Passes handle) (hne : batch.pending ≠ [])
    (hfits : base.Fits (w.entries.map (·.toDraft) ++ batch.pending)) :
    ∃ placed key new, new.map (·.toDraft) = batch.pending ∧
      Gives (do handle (← perform ((EntryBatch.place u).on batch)).1)
        ⟨base.holding u w, readings, some u⟩ placed
        ⟨{ base with lastKey := key }.holding u { w with entries := w.entries ++ new }, readings,
          some u⟩ := by
  obtain ⟨key, new, hnew, hr⟩ := hfits.append
  refine ⟨batch.pending.length, key, new, hnew, ?_⟩
  rw [EntryBatch.on_place u hne]
  refine .bind (a := (.ok batch.pending.length, { batch with pending := [] })) (.call hr rfl) ?_
  rw [h.ok]
  exact .pure _ _

variable (base u w readings) in
theorem gives_upsert {handle : Except StoreError Unit → Workflow Unit} (h : Passes handle)
    (a : Account) :
    Gives (do handle (← ask (.upsertAccount u a))) ⟨base.holding u w, readings, some u⟩ ()
      ⟨base.holding u { w with rows := putRow a w.rows }, readings, some u⟩ := by
  refine .bind (.ask (Store.respond_upsertAccount a)) ?_
  rw [h.ok]
  exact .pure _ _

variable (base u w) in
theorem gives_commit {handle : Except StoreError Unit → Workflow Unit} (h : Passes handle)
    (hw : base.waiting = []) {p : Posting} (hdrafts : w.entries.map (·.toDraft) = p.drafts)
    (hrows : w.rows = p.rows) (hfits : base.Fits p.drafts) :
    ∃ s', Gives (do handle (← ask (.commit u))) ⟨base.holding u w, [], some u⟩ () s' ∧
      s'.Leaves (base.book.post p) := by
  let after : Store := { base with
    rows := w.rows.foldr putRow base.rows
    entries := base.entries ++ w.entries
    units := [] }
  have hquiet : after.Quiet := ⟨rfl, hw⟩
  have hleave : Solo.leave ⟨after, [], some u⟩ = after := Store.close_quiet hquiet u
  refine ⟨⟨after, [], some u⟩, .bind (.ask (Store.respond_commit hw (hdrafts ▸ hfits))) ?_, rfl, ?_,
    ?_⟩
  · rw [h.ok]
    exact .pure _ _
  · rw [hleave]
    exact hquiet
  · rw [hleave, Book.post, ← hrows, ← hdrafts, Store.book, List.map_append]
    rfl

theorem gives_writeOpening {s : Store} (hq : s.Quiet) {batch : EntryBatch} (account : Account)
    {p : Posting} (hpending : batch.pending = p.drafts) (hne : p.drafts ≠ [])
    (hrows : p.rows = [account]) (hfits : s.Fits p.drafts) :
    ∃ s', (writeOpening batch account).Gives ⟨s, [], none⟩ () s' ∧ s'.Leaves (s.book.post p) := by
  let base : Store := { s with opened := s.opened + 1 }
  obtain ⟨x, key, new, hnew, hplace⟩ := gives_place base ⟨s.opened⟩ {} []
    (passes_orExists account.id .placingOpening) (hpending ▸ hne) (hpending ▸ hfits)
  have hupsert := gives_upsert { base with lastKey := key } ⟨s.opened⟩ { entries := [] ++ new } []
    (passes_orExists account.id .insertingAccount) account
  obtain ⟨s', hcommit, hleaves⟩ := gives_commit { base with lastKey := key } ⟨s.opened⟩
    { rows := [account], entries := [] ++ new } (passes_orExists account.id .committingCreation) hq.2
    (p := p) (hnew.trans hpending) hrows.symm hfits
  refine ⟨s', ?_, hleaves⟩
  refine .bind_bind (gives_openUnit .openingUnit hq) ?_
  refine .bind_bind hplace ?_
  exact .bind_bind hupsert hcommit

theorem gives_create {id : AccountId} {initial : Amount} {now : Instant} {s : Store} (hq : s.Quiet)
    (hfresh : Fresh settings request now) (hrow : s.book.row id = none)
    (hstream : s.book.stream id = [])
    (hfits : s.Fits (Posting.opening settings request id initial now).drafts)
    (hunused : entriesOf request.transaction s.entries = []) :
    ∃ s', (create settings request id initial).Gives ⟨s, [now], none⟩ (.opened id initial now) s' ∧
      s'.Leaves (s.book.post (.opening settings request id initial now)) := by
  have hlast : s.book.lastNumber id = .initial := by rw [Book.lastNumber, hstream]; rfl
  obtain ⟨batch, hbatch, hpending⟩ :=
    update_recordOpening settings request id initial now (n := .initial) rfl
  obtain ⟨s', hwrite, hleaves⟩ := gives_writeOpening hq (.opened id initial now) hpending
    (by simp [Posting.opening]) rfl hfits
  refine ⟨s', ?_, hleaves⟩
  refine .bind (gives_checkFresh rfl hfresh) ?_
  have habsent : s.respond (.findAccount id) = .replied (.error (.notFound "account")) s := by
    have hnone : findRow id s.rows = none := hrow
    rw [Store.respond, hnone]
    rfl
  refine .bind (.ask habsent) (.bind (.pure () _) ?_)
  refine .bind_bind (gives_checkUnused .checkingTransaction hunused) ?_
  refine .bind_bind (gives_load .loadingSequence) ?_
  simp only [hlast]
  rw [if_neg (by simp [EntryBatch.startingAt])]
  rw [hbatch]
  exact .bind (.pure batch _) (.bind hwrite (.pure _ s'))

/-! ## Moving an amount -/

theorem lockedRow_foundOr (row : Option Account) : lockedRow (foundOr "account" row) = pure row := by
  cases row <;> rfl

theorem gives_lockedRow {id : AccountId} (hrows : w.rows = []) (hid : id ∉ w.held) :
    Gives (do lockedRow (← ask (.lockAccount u id))) ⟨base.holding u w, readings, some u⟩
      (base.book.row id)
      ⟨base.holding u { w with held := id :: w.held }, readings, some u⟩ := by
  have hr := Store.respond_lockAccount (s := base) (u := u) hid
  have hrow : (findRow id w.rows).or (findRow id base.rows) = base.book.row id := by
    rw [hrows]
    rfl
  rw [hrow] at hr
  refine .bind (.ask hr) ?_
  rw [lockedRow_foundOr]
  exact .pure _ _

variable (base u readings) in
theorem gives_lockPair {source destination : AccountId} (hne : source ≠ destination) :
    ∃ held, (lockPair u source destination).Gives ⟨base.holding u {}, readings, some u⟩
      (base.book.row source, base.book.row destination)
      ⟨base.holding u { held := held }, readings, some u⟩ := by
  unfold lockPair
  split
  · refine ⟨[destination, source], .bind_bind (gives_lockedRow rfl (by simp)) ?_⟩
    exact .bind_bind (gives_lockedRow rfl (by simpa using hne.symm)) (.pure _ _)
  · refine ⟨[source, destination], .bind_bind (gives_lockedRow rfl (by simp)) ?_⟩
    exact .bind_bind (gives_lockedRow rfl (by simpa using hne)) (.pure _ _)

theorem gives_recheckUnused {t : TransactionId} (step : Step) (hw : w.entries = [])
    (h : entriesOf t base.entries = []) :
    Gives (do checkUnused t step (← ask (.findByTransactionIn u t)))
      ⟨base.holding u w, readings, some u⟩ () ⟨base.holding u w, readings, some u⟩ := by
  have hr : (base.holding u w).respond (.findByTransactionIn u t) =
      .replied (.ok []) (base.holding u w) := by
    have hnone : (base.holding u w).entriesOfIn u t = [] := by
      have hcommitted : entriesOf t (base.holding u w).entries = [] := h
      rw [Store.entriesOfIn, hcommitted, Store.unit_holding, hw]
      exact List.mergeSort_nil
    rw [Store.respond, hnone]
  exact .bind (.ask hr) (.pure () _)

theorem gives_loadIn {id : AccountId} {t : TransactionId} {version : SchemaVersion} (step : Step)
    (hw : w.entries = []) :
    Gives (do orInternal step (← perform (EntryBatch.loadIn u id t version)))
      ⟨base.holding u w, readings, some u⟩ (.startingAt id t version (base.book.lastNumber id))
      ⟨base.holding u w, readings, some u⟩ := by
  have hload : EntryBatch.loadIn u id t version = .call (.findLastIn u id) fun last =>
      .done ((EntryBatch.lastSequence last).map (.startingAt id t version)) := rfl
  have hr : (base.holding u w).respond (.findLastIn u id) =
      .replied (foundOr "event" (lastOf id base.entries)) (base.holding u w) := by
    rw [Store.respond, Store.lastIn_eq, Store.entriesIn, Store.unit_holding, hw, List.append_nil]
    rfl
  rw [hload]
  refine .bind (a := .ok (.startingAt id t version (base.book.lastNumber id))) (.call hr ?_)
    (.pure _ _)
  rw [Store.lastSequence_lastOf]
  rfl

variable (settings request s) in
theorem gives_record (id : AccountId) (e : Event) {i n : SequenceNumber} (hn : i.next? = some n) :
    ∃ b, Gives (ofResult ((EntryBatch.record e).update
        (.startingAt id request.transaction settings.version i))) s b s ∧
      b.pending = [request.draft settings id n e] := by
  have hrecord : (EntryBatch.record e).update
      (.startingAt id request.transaction settings.version i) =
      .ok ⟨id, request.transaction, settings.version, n, [request.draft settings id n e]⟩ := by
    simp only [EntryBatch.update_record, EntryBatch.startingAt, hn]
    rfl
  rw [hrecord]
  exact ⟨_, .pure _ s, rfl⟩

variable (settings request base u readings) in
theorem gives_transferBatches {source destination : AccountId} (amount : Amount)
    {n m : SequenceNumber} (hw : w.entries = [])
    (hn : (base.book.lastNumber source).next? = some n)
    (hm : (base.book.lastNumber destination).next? = some m) :
    ∃ debits credits, Gives (transferBatches settings request u source destination amount)
        ⟨base.holding u w, readings, some u⟩ (debits, credits)
        ⟨base.holding u w, readings, some u⟩ ∧
      debits.pending = [request.draft settings source n (.debited destination amount)] ∧
      credits.pending = [request.draft settings destination m (.credited source amount)] := by
  obtain ⟨debits, hdebits, hd⟩ := gives_record settings request
    ⟨base.holding u w, readings, some u⟩ source (.debited destination amount) hn
  obtain ⟨credits, hcredits, hc⟩ := gives_record settings request
    ⟨base.holding u w, readings, some u⟩ destination (.credited source amount) hm
  refine ⟨debits, credits, ?_, hd, hc⟩
  refine .bind_bind (gives_loadIn .loadingSource hw) ?_
  refine .bind_bind (gives_loadIn .loadingDestination hw) ?_
  exact .bind hdebits (.bind hcredits (.pure _ _))

variable (base u w) in
theorem gives_writeTransfer {debits credits : EntryBatch} (debited credited : Account) {p : Posting}
    (hw : base.waiting = []) (hentries : w.entries = []) (hrows : w.rows = [])
    (hdebits : debits.pending ≠ []) (hcredits : credits.pending ≠ [])
    (hdrafts : debits.pending ++ credits.pending = p.drafts)
    (hprows : putRow credited [debited] = p.rows) (hfits : base.Fits p.drafts) :
    ∃ s', (writeTransfer u debits credits debited credited).Gives
        ⟨base.holding u w, [], some u⟩ () s' ∧ s'.Leaves (base.book.post p) := by
  obtain ⟨rows, entries, held⟩ := w
  subst hentries hrows
  rw [← hdrafts] at hfits
  have hfirst : base.Fits debits.pending := hfits.left
  obtain ⟨x, key, new, hnew, hplace⟩ := gives_place base u { held } []
    (passes_orInternal .placingDebit) hdebits hfirst
  obtain ⟨x', key', new', hnew', hplace'⟩ := gives_place { base with lastKey := key } u
    { entries := [] ++ new, held } [] (passes_orInternal .placingCredit) hcredits
    (by rw [List.nil_append, hnew]; exact hfits)
  have hsource := gives_upsert { base with lastKey := key' } u
    { entries := [] ++ new ++ new', held } [] (passes_orInternal .updatingSource) debited
  have hdestination := gives_upsert { base with lastKey := key' } u
    { rows := [debited], entries := [] ++ new ++ new', held } []
    (passes_orInternal .updatingDestination) credited
  obtain ⟨s', hcommit, hleaves⟩ := gives_commit { base with lastKey := key' } u
    { rows := putRow credited [debited], entries := [] ++ new ++ new', held }
    (passes_orInternal .committingTransfer) hw (p := p)
    (by rw [List.nil_append, List.map_append, hnew, hnew', hdrafts]) hprows (hdrafts ▸ hfits)
  refine ⟨s', ?_, hleaves⟩
  refine .bind_bind hplace (.bind_bind hplace' ?_)
  exact .bind_bind hsource (.bind_bind hdestination hcommit)

theorem gives_transfer {source destination : AccountId} {amount : Amount} {checked now : Instant}
    {a c debited credited : Account} {n m : SequenceNumber} {s : Store} (hq : s.Quiet)
    (hfresh : Fresh settings request checked) (hne : source ≠ destination)
    (hsource : s.book.row source = some a) (hdestination : s.book.row destination = some c)
    (hdebit : a.debited amount now = .ok debited) (hcredit : c.credited amount now = .ok credited)
    (hn : (s.book.lastNumber source).next? = some n)
    (hm : (s.book.lastNumber destination).next? = some m)
    (hfits : s.Fits
      (Posting.movement settings request source destination amount debited credited n m).drafts)
    (hunused : entriesOf request.transaction s.entries = []) :
    ∃ s', (transfer settings request source destination amount).Gives ⟨s, [checked, now], none⟩ ()
        s' ∧
      s'.Leaves (s.book.post
        (.movement settings request source destination amount debited credited n m)) := by
  let base : Store := { s with opened := s.opened + 1 }
  have hdid := (Account.debit_id hdebit).trans (Book.row_id hsource)
  have hcid := (Account.credit_id hcredit).trans (Book.row_id hdestination)
  obtain ⟨held, hlock⟩ := gives_lockPair base ⟨s.opened⟩ [now] hne
  have hrows : (base.book.row source, base.book.row destination) = (some a, some c) :=
    congrArg₂ Prod.mk hsource hdestination
  rw [hrows] at hlock
  obtain ⟨debits, credits, hbatches, hdebits, hcredits⟩ := gives_transferBatches settings request
    base ⟨s.opened⟩ [] amount (w := { held }) rfl hn hm
  obtain ⟨s', hwrite, hleaves⟩ := gives_writeTransfer base ⟨s.opened⟩ { held }
    debited credited
    (p := .movement settings request source destination amount debited credited n m) hq.2 rfl rfl
    (by simp [hdebits] : debits.pending ≠ []) (by simp [hcredits] : credits.pending ≠ [])
    (by simp [hdebits, hcredits, Posting.movement])
    (by simp [putRow, hdid, hcid, hne, Posting.movement]) hfits
  refine ⟨s', ?_, hleaves⟩
  refine .bind (gives_checkFresh rfl hfresh) ?_
  refine .bind_bind (gives_checkUnused .checkingTransaction hunused) ?_
  rw [if_neg hne]
  refine .bind_bind (gives_openUnit .openingUnit hq) ?_
  refine .bind hlock (.bind (.pure a _) (.bind (.pure c _) ?_))
  refine .bind_bind (gives_recheckUnused .recheckingTransaction rfl hunused) ?_
  refine .bind (.now rfl) ?_
  rw [hdebit]
  refine .bind (.pure debited _) ?_
  rw [hcredit]
  exact .bind (.pure credited _) (.bind hbatches hwrite)

end Workflow

theorem Workflow.Gives.map {α β : Type} {w : Workflow α} {a : α} {s s' : Solo} (f : α → β)
    (h : w.Gives s a s') : (f <$> w).Gives s (f a) s' := by
  rw [map_eq_pure_bind]
  exact h.bind (.pure _ _)

/-- A command that may add a posting to a quiet store does so when it has its turn. -/
theorem Command.Posts.play {settings : Settings} {command : Command} {readings : List Instant}
    {s : Store} {p : Posting} (h : command.Posts settings readings s.book p) (hq : s.Quiet)
    (hk : s.book.Kept)
    (hunused : ∀ t, command.transaction? = some t → ∀ d ∈ s.book.drafts, d.transaction ≠ t) :
    ∃ s', Turn.play ⟨settings, command, readings⟩ s = some (.answered p.answer, s') ∧ s'.Quiet ∧
      s'.book = s.book.post p := by
  have hgives : ∃ solo, (command.workflow settings).Gives ⟨s, readings, none⟩ p.answer solo ∧
      solo.Leaves (s.book.post p) := by
    have hfits := h.fits hk
    cases h with
    | opening hfresh hrow hstream =>
      have hnil := Store.entriesOf_eq_nil (hunused _ rfl)
      obtain ⟨solo, hgives, hleaves⟩ := Workflow.gives_create hq hfresh hrow hstream hfits hnil
      exact ⟨solo, hgives.map _, hleaves⟩
    | movement hfresh hne hsource hdestination hdebit hcredit hn hm =>
      have hnil := Store.entriesOf_eq_nil (hunused _ rfl)
      obtain ⟨solo, hgives, hleaves⟩ := Workflow.gives_transfer hq hfresh hne hsource hdestination
        hdebit hcredit hn hm hfits hnil
      exact ⟨solo, hgives.map _, hleaves⟩
  obtain ⟨solo, hgives, hreadings, hquiet, hbook⟩ := hgives
  refine ⟨solo.leave, ?_, hquiet, hbook⟩
  have hanswer : (command.program settings).answer Solo.reply Solo.clock ⟨s, readings, none⟩ =
      some (.ok p.answer, solo) := hgives
  rw [Turn.play, hanswer]
  simp only [hreadings, List.isEmpty_nil, if_true]
  rfl

end Bookkeeping
