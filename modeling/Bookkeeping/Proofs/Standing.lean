import Bookkeeping.Proofs.Replies
import Bookkeeping.Proofs.UnitReads
import Bookkeeping.Proofs.WorkflowConduct

/-! # Knowledge that stands

What a program knows of its unit of work, and of the rows and numbers that it read under its locks,
stays true while other programs go on, because no other commit reaches an account that it has locked.
At the moment of its own commit it has therefore written a posting of its command to the book as it
is then, whatever happened since it began.
-/
namespace Bookkeeping

namespace Store

variable {s s' : Store} {id : AccountId}

theorem foldl_laterEntry {es : List Entry} {b e : Entry}
    (h : es.foldl laterEntry (some b) = some e) :
    (es.map (·.toDraft)).foldl Book.laterNumber b.sequence = e.sequence := by
  induction es generalizing b with
  | nil =>
    cases h
    rfl
  | cons x rest ih =>
    rw [List.map_cons, List.foldl_cons, Book.laterNumber]
    rw [List.foldl_cons, laterEntry] at h
    split
    · rename_i hle
      rw [if_pos hle] at h
      exact ih h
    · rename_i hle
      rw [if_neg hle] at h
      exact ih h

theorem lastNumber_of_lastOf {e : Entry} (h : lastOf id s.entries = some e) :
    s.book.lastNumber id = e.sequence := by
  rw [Book.lastNumber, stream_book]
  unfold lastOf at h
  cases hes : s.entries.filter fun e => e.account = id with
  | nil =>
    rw [hes] at h
    cases h
  | cons x rest =>
    rw [hes] at h
    have hx : Book.laterNumber .initial x.toDraft = x.sequence := if_pos (Nat.zero_le _)
    rw [List.map_cons, List.foldl_cons, hx]
    exact foldl_laterEntry h

theorem stage_toDraft {free : List Entry → Draft → Bool} {key key' : Nat}
    {staged staged' : List Entry} {drafts : List Draft}
    (h : stage free key staged drafts = (some staged', key')) :
    staged'.map (·.toDraft) = staged.map (·.toDraft) ++ drafts := by
  induction drafts generalizing key staged with
  | nil =>
    cases h
    rw [List.append_nil]
  | cons d rest ih =>
    rw [stage] at h
    split at h
    · rw [ih h]
      simp
    · cases h

theorem Keeps.giveLock (s : Store) (u : UnitId) (id : AccountId) (v : UnitId) :
    s.Keeps (s.giveLock u id) v := by
  rw [Store.giveLock]
  refine ⟨isOpen_setUnit.mpr, unit_setUnit_congr WorkUnit.rows rfl,
    unit_setUnit_congr WorkUnit.entries rfl, ?_⟩
  rw [unit_setUnit]
  split
  · rename_i hv
    rw [hv.1]
    exact List.subset_cons_self _ _
  · exact List.Subset.refl _

theorem mem_held_giveLock {u : UnitId} (h : s.IsOpen u) (id : AccountId) :
    id ∈ ((s.giveLock u id).unit u).held := by
  rw [Store.giveLock, unit_setUnit_self h]
  exact List.mem_cons_self

theorem not_isOpen_opened (h : s.Sound) : ¬s.IsOpen ⟨s.opened⟩ :=
  fun ho => Nat.lt_irrefl _ (h.lt_opened _ ho)

theorem isOpen_openUnit (s : Store) : s.openUnit.2.IsOpen s.openUnit.1 := by
  simp [IsOpen, openUnit]

end Store

namespace Knowledge

variable {k : Knowledge} {u : UnitId} {s s' : Store}

/-- A store agrees with what a program knows of its unit of work and of the accounts that this unit
has locked. -/
structure Stands (k : Knowledge) (u : UnitId) (s : Store) : Prop where
  isOpen : s.IsOpen u
  drafts : (s.unit u).entries.map (·.toDraft) = k.drafts
  rows : (s.unit u).rows = k.rows
  locked : ∀ id a, (id, a) ∈ k.locked → id ∈ (s.unit u).held ∧ s.book.row id = some a
  numbers : ∀ id n, (id, n) ∈ k.numbers → id ∈ k.locked.map (·.1) ∧ s.book.lastNumber id = n

namespace Stands

theorem held (h : k.Stands u s) {id : AccountId} (hid : id ∈ k.locked.map (·.1)) :
    id ∈ (s.unit u).held := by
  obtain ⟨⟨_, a⟩, ha, rfl⟩ := List.mem_map.mp hid
  exact (h.locked _ a ha).1

theorem row (h : k.Stands u s) {id : AccountId} (hid : id ∈ k.locked.map (·.1)) :
    ∃ a, s.book.row id = some a := by
  obtain ⟨⟨_, a⟩, ha, rfl⟩ := List.mem_map.mp hid
  exact ⟨a, (h.locked _ a ha).2⟩

theorem of_keeps (h : k.Stands u s) (hs : s.Keeps s' u)
    (hbook : ∀ id ∈ k.locked.map (·.1),
      s'.book.row id = s.book.row id ∧ s'.book.stream id = s.book.stream id) : k.Stands u s' where
  isOpen := hs.isOpen h.isOpen
  drafts := by rw [hs.entries, h.drafts]
  rows := by rw [hs.rows, h.rows]
  locked id a ha := by
    obtain ⟨hheld, hrow⟩ := h.locked id a ha
    exact ⟨hs.held hheld, (hbook id (List.mem_map_of_mem ha)).1.trans hrow⟩
  numbers id n hn := by
    obtain ⟨hid, hlast⟩ := h.numbers id n hn
    refine ⟨hid, ?_⟩
    rw [Book.lastNumber, (hbook id hid).2]
    exact hlast

theorem of_keeps_of_book_eq (h : k.Stands u s) (hs : s.Keeps s' u) (hbook : s'.book = s.book) :
    k.Stands u s' :=
  h.of_keeps hs fun _ _ => by simp [hbook]

theorem openUnit (hs : s.Sound) (k : Knowledge) :
    (k.tell (.replied .openUnit (.ok s.openUnit.1))).Stands s.openUnit.1 s.openUnit.2 := by
  have hu : s.unit ⟨s.opened⟩ = {} := Store.unit_of_not_isOpen (Store.not_isOpen_opened hs)
  refine ⟨s.isOpen_openUnit, ?_, ?_, by simp [tell], by simp [tell]⟩ <;>
    rw [Store.unit_openUnit, Store.openUnit, hu] <;> rfl

theorem lock (h : k.Stands u s) (hr : k.rows = []) {id : AccountId}
    {r : (Call.lockAccount u id).Reply} (ht : s.lock u id = .replied r s') :
    (k.tell (.replied (.lockAccount u id) r)).Stands u s' := by
  obtain ⟨hreply, hs'⟩ := Store.lock_replied ht
  have hkeep : s.Keeps s' u ∧ id ∈ (s'.unit u).held ∧ s'.book = s.book := by
    rcases hs' with ⟨hheld, rfl⟩ | ⟨-, rfl⟩
    · exact ⟨.refl _ u, hheld, rfl⟩
    · exact ⟨.giveLock s u id u, Store.mem_held_giveLock h.isOpen id, rfl⟩
  obtain ⟨hkeeps, hheld, hbook⟩ := hkeep
  have hstands := h.of_keeps_of_book_eq hkeeps hbook
  have hrow : s.rowIn u id = s.book.row id := by
    rw [Store.rowIn, h.rows, hr]
    rfl
  rw [hreply, hrow]
  cases hb : s.book.row id with
  | none => exact hstands
  | some a =>
    refine ⟨hstands.isOpen, hstands.drafts, hstands.rows, fun other b hb' => ?_, fun other n hn => ?_⟩
    · rcases List.mem_cons.mp hb' with he | hb'
      · cases he
        exact ⟨hheld, by rw [hbook, hb]⟩
      · exact hstands.locked other b hb'
    · obtain ⟨hid, hlast⟩ := hstands.numbers other n hn
      exact ⟨List.mem_cons_of_mem _ hid, hlast⟩

theorem upsert (h : k.Stands u s) (a : Account) :
    { k with rows := putRow a k.rows }.Stands u
      (s.setUnit u { s.unit u with rows := putRow a (s.unit u).rows }) := by
  have hu := Store.unit_setUnit_self h.isOpen { s.unit u with rows := putRow a (s.unit u).rows }
  refine ⟨Store.isOpen_setUnit.mpr h.isOpen, ?_, ?_, fun id b hb => ?_, h.numbers⟩
  · rw [hu]; exact h.drafts
  · rw [hu, h.rows]
  · rw [hu]; exact h.locked id b hb

theorem append (h : k.Stands u s) (drafts : List Draft) :
    (k.tell (.replied (.append u drafts) (s.append u drafts).1)).Stands u
      (s.append u drafts).2 := by
  rcases s.append_cases u drafts with ⟨staged, key, hstage, he⟩ | ⟨key, he⟩
  · rw [he]
    have hu := Store.unit_setUnit_self (s := { s with lastKey := key }) h.isOpen
      { s.unit u with entries := (s.unit u).entries ++ staged }
    refine ⟨Store.isOpen_setUnit.mpr h.isOpen, ?_, ?_, fun id b hb => ?_, h.numbers⟩
    · rw [hu, List.map_append, h.drafts, Store.stage_toDraft hstage]
      rfl
    · rw [hu]; exact h.rows
    · rw [hu]; exact h.locked id b hb
  · rw [he]
    exact h.of_keeps_of_book_eq (.of_unit_eq id rfl) rfl

theorem findLast (h : k.Stands u s) (hd : k.drafts = []) {id : AccountId}
    (hid : id ∈ k.locked.map (·.1)) :
    (k.tell (.replied (.findLastIn u id) (foundOr "event" (s.lastIn u id)))).Stands u
      s := by
  have hentries : s.entriesIn u = s.entries := by
    have hnil : (s.unit u).entries = [] := List.map_eq_nil_iff.mp (h.drafts.trans hd)
    rw [Store.entriesIn, hnil, List.append_nil]
  rw [Store.lastIn_eq, hentries]
  cases hlast : lastOf id s.entries with
  | none => exact h
  | some e =>
    refine ⟨h.isOpen, h.drafts, h.rows, h.locked, ?_⟩
    intro other n hn
    rcases List.mem_cons.mp hn with he | hn
    · cases he
      exact ⟨hid, Store.lastNumber_of_lastOf hlast⟩
    · exact h.numbers other n hn

theorem congr {k' : Knowledge} (h : k.Stands u s) (hl : k'.locked = k.locked)
    (hn : k'.numbers = k.numbers) (hd : k'.drafts = k.drafts) (hr : k'.rows = k.rows) :
    k'.Stands u s := by
  refine ⟨h.isOpen, by rw [hd, h.drafts], by rw [hr, h.rows], ?_, ?_⟩
  · rw [hl]; exact h.locked
  · rw [hl, hn]; exact h.numbers

theorem read (h : k.Stands u s) (t : Time.Instant) : (k.tell (.read t)).Stands u s :=
  h.congr rfl rfl rfl rfl

theorem findByTransactionIn (h : k.Stands u s) {t : TransactionId}
    (r : (Call.findByTransactionIn u t).Reply) :
    (k.tell (.replied (.findByTransactionIn u t) r)).Stands u s := by
  cases r with
  | ok es => cases es <;> exact h.congr rfl rfl rfl rfl
  | error e =>
    rw [tell]
    split <;> exact h.congr rfl rfl rfl rfl

theorem findByTransaction (h : k.Stands u s) {t : TransactionId}
    (r : (Call.findByTransaction t).Reply) :
    (k.tell (.replied (.findByTransaction t) r)).Stands u s := by
  cases r with
  | ok es => cases es <;> exact h.congr rfl rfl rfl rfl
  | error e =>
    rw [tell]
    split <;> exact h.congr rfl rfl rfl rfl

theorem told {c : Call} {r : c.Reply} (h : k.Stands u s) (hu : k.unit = some u) (hp : k.Permits c)
    (ht : s.Told c r s') (hend : (k.tell (.replied c r)).ending = none) :
    (k.tell (.replied c r)).Stands u s' := by
  have hunit {v : UnitId} (hv : k.unit = some v) : v = u := Option.some.inj (hv.symm.trans hu)
  obtain ⟨-, hp⟩ := hp
  cases ht with
  | answered ht =>
    cases c with
    | findAccount id => cases ht; exact h
    | findByTransaction t => cases ht; exact h.findByTransaction _
    | findLast id => cases ht; exact h
    | openUnit =>
      rw [hu] at hp
      cases hp.1
    | lockAccount v id =>
      obtain ⟨hv, hr⟩ := hp
      cases hunit hv
      exact h.lock hr ht
    | upsertAccount v a =>
      cases hunit hp
      cases ht
      exact h.upsert a
    | append v drafts =>
      cases hunit hp
      cases ht
      exact h.append drafts
    | findByTransactionIn v t =>
      cases hunit hp.1
      cases ht
      exact h.findByTransactionIn _
    | findLastIn v id =>
      obtain ⟨hv, hd, hid⟩ := hp
      cases hunit hv
      cases ht
      exact h.findLast hd hid
    | commit v =>
      cases r <;> cases hend
    | rollback v => cases hp
  | refused c e =>
    cases c with
    | openUnit =>
      rw [hu] at hp
      cases hp.1
    | findByTransactionIn v t =>
      cases hunit hp.1
      exact h.findByTransactionIn _
    | findByTransaction t => exact h.findByTransaction _
    | commit v => cases hend
    | rollback v => cases hp
    | _ => exact h
  | overlooked t => exact h.findByTransaction _
  | overlookedIn v t =>
    cases hunit hp.1
    exact h.findByTransactionIn _

end Stands

theorem Permits.unit_tell {c : Call} (hp : k.Permits c) (hu : k.unit = some u) (r : c.Reply) :
    (k.tell (.replied c r)).unit = some u := by
  rw [Knowledge.unit_tell, hu]
  cases c with
  | openUnit =>
    rw [Permits, hu] at hp
    cases hp.2.1
  | _ => rfl

theorem Stands.opened (hs : s.Sound) (hk : k.unit = none) {c : Call} {r : c.Reply}
    (ht : s.Told c r s') (hu : (k.tell (.replied c r)).unit = some u) :
    ¬s.IsOpen u ∧ (k.tell (.replied c r)).Stands u s' := by
  rw [unit_tell, hk] at hu
  cases c with
  | openUnit =>
    cases ht with
    | answered ht =>
      cases ht
      cases hu
      exact ⟨Store.not_isOpen_opened hs, .openUnit hs k⟩
    | refused _ e => cases hu
  | _ => cases hu

end Knowledge

/-! ## Commits -/

theorem Store.Committable.not_taken {s : Store} {w : WorkUnit} (h : s.Committable w) {d d' : Draft}
    (hd : d ∈ w.entries.map (·.toDraft)) (hd' : d' ∈ s.book.stream d.account) :
    d'.sequence ≠ d.sequence := by
  intro he
  obtain ⟨e, hmem, rfl⟩ := List.mem_map.mp hd
  rw [stream_book] at hd'
  obtain ⟨e', hmem', rfl⟩ := List.mem_map.mp hd'
  obtain ⟨hin, hacc⟩ := List.mem_filter.mp hmem'
  refine h.2 e hmem ⟨e', hin, ?_⟩
  simp only [decide_eq_true_eq] at hacc
  rw [Entry.key, Entry.key, Draft.key, Draft.key, he, hacc]

namespace Knowledge.Stands

variable {k : Knowledge} {u : UnitId} {s : Store}

/-- The numbers of an account that has a row were read, not taken for missing. -/
theorem next_eq (h : k.Stands u s) (hk : s.book.Kept) (hc : s.Committable (s.unit u))
    {id : AccountId} {a : Account} (hrow : s.book.row id = some a) {i n : SequenceNumber}
    (hi : (id, i) ∈ k.numbers ∨ i = .initial) (hn : i.next? = some n) {d : Draft}
    (hd : d ∈ k.drafts) (hid : d.account = id) (hseq : d.sequence = n) :
    (s.book.lastNumber id).next? = some n := by
  rcases hi with hi | rfl
  · rw [(h.numbers id i hi).2, hn]
  · obtain ⟨d', hd', hfirst⟩ := hk.exists_first (hk.stream_ne_nil hrow)
    have hne := hc.not_taken (h.drafts ▸ hd) (hid ▸ hd')
    have hone : n = .first := SequenceNumber.ext (SequenceNumber.next?_eq_some_iff.mp hn)
    exact absurd (by rw [hfirst, hseq, hone]) hne

end Knowledge.Stands

namespace Command.Ready

variable {settings : Settings} {command : Command} {k : Knowledge} {p : Posting} {u : UnitId}
  {s : Store}

theorem drafts_eq (h : command.Ready settings k p) : k.drafts = p.drafts := by
  cases h with
  | opening _ _ hdrafts => exact hdrafts
  | movement _ _ _ _ _ _ _ _ _ _ _ _ _ hdrafts => exact hdrafts

theorem transaction_ne_none (h : command.Ready settings k p) : command.transaction? ≠ none := by
  cases h <;> simp [transaction?]

/-- What is written is a posting to the book at the moment of the commit. -/
theorem posts (h : command.Ready settings k p) (hs : k.Stands u s) (hk : s.book.Kept)
    (hc : s.Committable (s.unit u)) : command.Posts settings k.readings s.book p := by
  cases h with
  | @opening request id initial now _ readings fresh drafts rows =>
    rw [readings]
    have hstream : s.book.stream id = [] := by
      by_contra hne
      obtain ⟨d', hd', hfirst⟩ := hk.exists_first hne
      have hd : request.draft settings id .first (.opened initial) ∈ k.drafts := by
        rw [drafts]
        exact List.mem_cons_self
      exact hc.not_taken (hs.drafts ▸ hd) hd' hfirst
    exact .opening fresh ((hk.backed id).mpr hstream) hstream
  | @movement request source destination amount checked now a c debited credited i j n m _ readings
      fresh ne source_row destination_row _ _ debit credit source_number source_next
      destination_number destination_next drafts rows =>
    rw [readings]
    have hsource := (hs.locked source a source_row).2
    have hdestination := (hs.locked destination c destination_row).2
    refine .movement fresh ne hsource hdestination debit credit ?_ ?_
    · refine hs.next_eq hk hc hsource source_number source_next
        (d := request.draft settings source n (.debited destination amount)) ?_ rfl rfl
      rw [drafts]
      exact List.mem_cons_self
    · refine hs.next_eq hk hc hdestination destination_number destination_next
        (d := request.draft settings destination m (.credited source amount)) ?_ rfl rfl
      rw [drafts]
      exact List.mem_cons_of_mem _ List.mem_cons_self

theorem rows_eq (h : command.Ready settings k p) (hs : k.Stands u s) : k.rows = p.rows := by
  cases h with
  | opening _ _ _ hrows => exact hrows
  | @movement request source destination amount checked now a c debited credited i j n m _ _ _ ne
      source_row destination_row _ _ debit credit _ _ _ _ _ rows =>
    have hd := (Account.debit_id debit).trans (Book.row_id (hs.locked source a source_row).2)
    have hc := (Account.credit_id credit).trans
      (Book.row_id (hs.locked destination c destination_row).2)
    have hne : debited.id ≠ credited.id := by rwa [hd, hc]
    rw [rows, putRow]
    simp [hne, Posting.movement]

theorem held (h : command.Ready settings k p) (hs : k.Stands u s) {readings : List Time.Instant}
    (hp : command.Posts settings readings s.book p) {id : AccountId} {a : Account}
    (hid : id ∈ command.accounts) (hrow : s.book.row id = some a) : id ∈ (s.unit u).held := by
  cases h with
  | opening _ _ _ _ =>
    rw [accounts, List.mem_singleton] at hid
    subst hid
    cases hp with
    | opening _ hnone _ =>
      rw [hrow] at hnone
      cases hnone
  | movement _ _ _ hsource hdestination =>
    simp only [accounts, List.mem_cons, List.not_mem_nil, or_false] at hid
    rcases hid with rfl | rfl
    · exact (hs.locked _ _ hsource).1
    · exact (hs.locked _ _ hdestination).1

/-- Accounts that exist are written to after the transaction was looked up under their locks. -/
theorem cleared (h : command.Ready settings k p) {readings : List Time.Instant}
    (hp : command.Posts settings readings s.book p) {id : AccountId} (hid : id ∈ command.accounts)
    (hrow : s.book.row id ≠ none) : id ∈ k.cleared := by
  cases h with
  | opening _ _ _ _ =>
    rw [accounts, List.mem_singleton] at hid
    subst hid
    cases hp with
    | opening _ hnone _ => exact absurd hnone hrow
  | movement _ _ _ _ _ hsource hdestination =>
    simp only [accounts, List.mem_cons, List.not_mem_nil, or_false] at hid
    rcases hid with rfl | rfl
    · exact hsource
    · exact hdestination

end Command.Ready

theorem Knowledge.Stands.of_commit {settings : Settings} {command : Command} {k k' : Knowledge}
    {p : Posting} {u v : UnitId} {s s' : Store} (h' : k'.Stands v s) (hsound : s.Sound)
    (hne : v ≠ u) (h : command.Ready settings k p) (hs : k.Stands u s)
    (hp : command.Posts settings k.readings s.book p) (hkeeps : s.Keeps s' v)
    (hbook : s'.book = s.book.post p) : k'.Stands v s' := by
  apply h'.of_keeps hkeeps
  intro id hid
  obtain ⟨a, ha⟩ := h'.row hid
  have hother : id ∉ command.accounts := fun hmem =>
    hne (hsound.exclusive v u id (h'.held hid) (h.held hs hp hmem ha))
  rw [hbook]
  exact ⟨hp.row_of_not_mem hother, hp.stream_of_not_mem hother⟩

/-! ## What programs leave to each other -/

namespace Store

variable {s s' s'' : Store} {u : Option UnitId}

/-- The program of a unit of work has changed a store, and what others know still stands. -/
structure Spares (s s' : Store) (u : Option UnitId) : Prop where
  sound : s'.Sound
  stands : ∀ v (k : Knowledge), u ≠ some v → k.Stands v s → k.Stands v s'

namespace Spares

theorem refl (h : s.Sound) : s.Spares s u := ⟨h, fun _ _ _ => id⟩

theorem told (hs : s.Sound) {c : Call} {r : c.Reply} (h : s.Told c r s')
    (hc : (Observation.replied c r).isCommit = false) (hu : c.unit? = none ∨ c.unit? = u) :
    s.Spares s' u := by
  refine ⟨h.sound hs, fun v k hv hk => hk.of_keeps_of_book_eq (h.keeps ?_ hk.isOpen) ?_⟩
  · rcases hu with hu | hu <;> rw [hu]
    · simp
    · exact hv
  · exact book_eq (h.same hc).1 (h.same hc).2

/-- A commit reaches no account that another program has locked. -/
theorem commit {settings : Settings} {command : Command} {k : Knowledge} {p : Posting} {v : UnitId}
    {a : Unit} (hs : s.Sound) (h : s.Told (.commit v) (.ok a) s') (hr : command.Ready settings k p)
    (hk : k.Stands v s) (hp : command.Posts settings k.readings s.book p)
    (hbook : s'.book = s.book.post p) : s.Spares s' (some v) := by
  refine ⟨h.sound hs, ?_⟩
  intro w k' hw hk'
  exact hk'.of_commit hs (fun he => hw (congrArg some he.symm)) hr hk hp (h.keeps hw hk'.isOpen) hbook

theorem waiting (hs : s.Sound) (queue : List (UnitId × AccountId)) :
    s.Spares { s with waiting := queue } u :=
  ⟨hs.of_same rfl rfl fun _ => rfl, fun _ _ _ hk => hk.of_keeps_of_book_eq (.of_unit_eq id rfl) rfl⟩

theorem close (h : s.Spares s' u) {v : UnitId} (hv : u = some v ∨ ¬s.IsOpen v) :
    s.Spares (s'.close v) u := by
  refine ⟨h.sound.close v, ?_⟩
  intro w k hw hk
  have hne : w ≠ v := by
    rintro rfl
    rcases hv with hv | hv
    · exact hw hv
    · exact hv hk.isOpen
  exact (h.stands w k hw hk).of_keeps_of_book_eq (.close hne)
    (book_eq (rows_close _ _) (entries_close _ _))

theorem dropUnit {b : Backend} (h : s.Spares b.store u) {u' : Option UnitId}
    (hu : ∀ v, u' = some v → u = some v ∨ ¬s.IsOpen v) : s.Spares (b.dropUnit u').store u := by
  cases u' with
  | none => exact h
  | some v => exact h.close (hu v rfl)

end Spares

@[simp] theorem rows_dropUnit (b : Backend) (u : Option UnitId) :
    (b.dropUnit u).store.rows = b.store.rows := by
  cases u with
  | none => rfl
  | some v => exact rows_close _ _

@[simp] theorem entries_dropUnit (b : Backend) (u : Option UnitId) :
    (b.dropUnit u).store.entries = b.store.entries := by
  cases u with
  | none => rfl
  | some v => exact entries_close _ _

end Store

end Bookkeeping
