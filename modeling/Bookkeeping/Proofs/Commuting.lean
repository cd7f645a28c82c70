import Bookkeeping.Proofs.Overflow
import Bookkeeping.Proofs.RowLocks

/-! # Commands that have nothing to do with each other

What a command comes to depends on the rows and streams of the accounts that it names and on whether its
transaction is recorded, and a posting changes nothing else. Commands that name different accounts and
different transactions therefore do not notice each other. Only the keys of their entries, which all
commands draw from one counter, depend on who comes first.
-/
namespace Bookkeeping
open Bookkeeping.Time

namespace Command

def named : Command → List AccountId
  | .create _ id _ => [id]
  | .transfer _ source destination _ => [source, destination]
  | .get id => [id]

/-- Two commands name different accounts, and record nothing under one name. -/
structure Apart (c c' : Command) : Prop where
  named : ∀ id ∈ c.named, id ∉ c'.named
  transaction : ∀ t, c.transaction? = some t → c'.transaction? ≠ some t

theorem Apart.symm {c c' : Command} (h : c.Apart c') : c'.Apart c where
  named id hid hid' := h.named id hid' hid
  transaction t ht ht' := h.transaction t ht' ht

theorem accounts_subset_named (c : Command) : c.accounts ⊆ c.named := by
  cases c with
  | get id => exact List.nil_subset _
  | _ => exact List.Subset.refl _

/-- A book shows to a command what another one shows to it. -/
structure Sees (c : Command) (b b' : Book) : Prop where
  row : ∀ id ∈ c.named, b'.row id = b.row id
  stream : ∀ id ∈ c.named, b'.stream id = b.stream id
  records : ∀ t, c.transaction? = some t → (b'.Records t ↔ b.Records t)

theorem judge_congr {c : Command} {b b' : Book} (h : c.Sees b b') (settings : Settings)
    (checked now : Instant) : c.judge settings checked now b' = c.judge settings checked now b := by
  have hrequire {id : AccountId} (hid : id ∈ c.named) (missing : LedgerError) :
      b'.require id missing = b.require id missing := by
    rw [Book.require, Book.require, h.row id hid]
  have hnext {id : AccountId} (hid : id ∈ c.named) : b'.nextNumber id = b.nextNumber id := by
    rw [Book.nextNumber, Book.nextNumber, Book.lastNumber, Book.lastNumber, h.stream id hid]
  cases c with
  | create request id initial =>
    have hid : id ∈ [id] := List.mem_singleton_self id
    simp only [judge, h.row id hid, h.records _ rfl]
  | transfer request source destination amount =>
    have hs : source ∈ [source, destination] := List.mem_cons_self
    have hd : destination ∈ [source, destination] := List.mem_cons_of_mem _ List.mem_cons_self
    simp only [judge, Book.move, h.records _ rfl, hrequire hs, hrequire hd, hnext hs, hnext hd]
  | get id =>
    have hid : id ∈ [id] := List.mem_singleton_self id
    simp only [judge, hrequire hid]

end Command

/-! ## What a posting leaves alone -/

namespace Book

variable {b b' : Book} {id : AccountId}

theorem row_post (b : Book) (p : Posting) (id : AccountId) :
    (b.post p).row id = (findRow id p.rows).or (b.row id) :=
  Store.findRow_foldr_putRow id p.rows b.rows

theorem row_post_congr (h : b'.row id = b.row id) (p : Posting) :
    (b'.post p).row id = (b.post p).row id := by
  rw [row_post, row_post, h]

theorem stream_post_congr (h : b'.stream id = b.stream id) (p : Posting) :
    (b'.post p).stream id = (b.post p).stream id := by
  rw [stream_post, stream_post, h]

end Book

/-- A posting writes rows of the accounts that a command names, and drafts for these in its name. -/
structure Posting.Within (p : Posting) (c : Command) : Prop where
  rows : ∀ a ∈ p.rows, a.id ∈ c.named
  drafts : ∀ d ∈ p.drafts, c.transaction? = some d.transaction ∧ d.account ∈ c.named

theorem Command.Posts.within {settings : Settings} {c : Command} {readings : List Instant} {b : Book}
    {p : Posting} (h : c.Posts settings readings b p) : p.Within c where
  rows a ha := by
    cases h with
    | opening =>
      rw [List.mem_singleton.mp ha]
      exact List.mem_singleton_self _
    | movement _ _ hs hd hdebit hcredit =>
      have hds := (Account.debit_id hdebit).trans (Book.row_id hs)
      have hcd := (Account.credit_id hcredit).trans (Book.row_id hd)
      simp only [Posting.movement, List.mem_cons, List.not_mem_nil, or_false] at ha
      rcases ha with rfl | rfl
      · simp [Command.named, hcd]
      · simp [Command.named, hds]
  drafts d hd := (h.draft hd).imp_right fun hid => c.accounts_subset_named hid

namespace Posting.Within

variable {p p' : Posting} {c c' : Command} {id : AccountId}

theorem findRow_eq_none (h : p.Within c) (hid : id ∉ c.named) : findRow id p.rows = none := by
  refine List.find?_eq_none.mpr fun a ha => ?_
  rw [decide_eq_true_eq]
  rintro rfl
  exact hid (h.rows a ha)

theorem filter_eq_nil (h : p.Within c) (hid : id ∉ c.named) :
    p.drafts.filter (fun d => d.account = id) = [] := by
  refine List.filter_eq_nil_iff.mpr fun d hd => ?_
  rw [decide_eq_true_eq]
  rintro rfl
  exact hid (h.drafts d hd).2

theorem row_post (h : p.Within c) (b : Book) (hid : id ∉ c.named) : (b.post p).row id = b.row id := by
  rw [Book.row_post, h.findRow_eq_none hid, Option.none_or]

theorem stream_post (h : p.Within c) (b : Book) (hid : id ∉ c.named) :
    (b.post p).stream id = b.stream id := by
  rw [Book.stream_post, h.filter_eq_nil hid, List.append_nil]

theorem sees_post (h : p.Within c') (hapart : c.Apart c') (b : Book) : c.Sees b (b.post p) where
  row id hid := h.row_post b (hapart.named id hid)
  stream id hid := h.stream_post b (hapart.named id hid)
  records t ht := by
    constructor
    · rintro ⟨d, hd, rfl⟩
      rcases List.mem_append.mp hd with hd | hd
      · exact ⟨d, hd, rfl⟩
      · exact absurd (h.drafts d hd).1 (hapart.transaction _ ht)
    · rintro ⟨d, hd, rfl⟩
      exact ⟨d, List.mem_append_left _ hd, rfl⟩

/-- Postings of commands that have nothing to do with each other can be made in either order. -/
theorem post_comm (h : p.Within c) (h' : p'.Within c') (hapart : c.Apart c') (b : Book)
    (id : AccountId) :
    ((b.post p).post p').row id = ((b.post p').post p).row id ∧
      ((b.post p).post p').stream id = ((b.post p').post p).stream id := by
  by_cases hid : id ∈ c.named
  · -- the second posting does nothing here
    have hid' := hapart.named id hid
    rw [h'.row_post (b.post p) hid', h'.stream_post (b.post p) hid']
    exact ⟨(Book.row_post_congr (h'.row_post b hid') p).symm,
      (Book.stream_post_congr (h'.stream_post b hid') p).symm⟩
  · rw [h.row_post (b.post p') hid, h.stream_post (b.post p') hid]
    exact ⟨Book.row_post_congr (h.row_post b hid) p', Book.stream_post_congr (h.stream_post b hid) p'⟩

end Posting.Within

/-! ## Commands after each other -/

namespace Visit

variable {b : Book} {v v' : Visit} {p : Posting}

theorem within_of_judge (hk : b.Kept) (h : v.judge b = .ok p) : p.Within v.command := by
  rcases Command.posts_of_judge hk h with ⟨readings, rest, -, hposts, -⟩ | ⟨id, a, -, -, rfl⟩
  · exact hposts.within
  · exact ⟨by simp, by simp⟩

theorem judge_after (hk : b.Kept) (hapart : v.command.Apart v'.command) :
    v.judge (b.after (v'.judge b)) = v.judge b := by
  cases h : v'.judge b with
  | error why => rfl
  | ok p => exact Command.judge_congr ((within_of_judge hk h).sees_post hapart b) _ _ _

theorem after_comm (hk : b.Kept) (hapart : v.command.Apart v'.command) (id : AccountId) :
    ((b.after (v.judge b)).after (v'.judge b)).row id =
        ((b.after (v'.judge b)).after (v.judge b)).row id ∧
      ((b.after (v.judge b)).after (v'.judge b)).stream id =
        ((b.after (v'.judge b)).after (v.judge b)).stream id := by
  cases h : v.judge b with
  | error why => exact ⟨rfl, rfl⟩
  | ok p =>
    cases h' : v'.judge b with
    | error why => exact ⟨rfl, rfl⟩
    | ok p' => exact (within_of_judge hk h).post_comm (within_of_judge hk h') hapart b id

end Visit

namespace System

/-- Whatever has happened before, two commands that name different accounts and different transactions
end in the same way whichever of them goes first, and leave the same rows and the same streams up to
the keys of entries. -/
theorem apart_commute {actions : List Action} (hidle : (run empty actions).store.units = [])
    {v v' : Visit} (hapart : v.command.Apart v'.command) :
    let s := (run empty actions).store
    (∃ o, (s.serve v).1 = some o ∧ ((s.serve v').2.serve v).1 = some o) ∧
    (∃ o, (s.serve v').1 = some o ∧ ((s.serve v).2.serve v').1 = some o) ∧
    ∀ id, findRow id ((s.serve v).2.serve v').2.rows = findRow id ((s.serve v').2.serve v).2.rows ∧
      (((s.serve v).2.serve v').2.entriesFor id).map (·.toDraft) =
        (((s.serve v').2.serve v).2.entriesFor id).map (·.toDraft) := by
  intro s
  have hs : s.Ready := ready_run hidle
  have hk := hs.reached.kept
  obtain ⟨ho, -, hbook⟩ := hs.serve_eq v
  obtain ⟨ho', -, hbook'⟩ := hs.serve_eq v'
  obtain ⟨hsecond, -, hdone⟩ := (hs.serve v').serve_eq v
  obtain ⟨hsecond', -, hdone'⟩ := (hs.serve v).serve_eq v'
  rw [hbook', Visit.judge_after hk hapart] at hsecond hdone
  rw [hbook, Visit.judge_after hk hapart.symm] at hsecond' hdone'
  refine ⟨⟨_, ho, hsecond⟩, ⟨_, ho', hsecond'⟩, fun id => ?_⟩
  obtain ⟨hrow, hstream⟩ := Visit.after_comm hk hapart id
  rw [← hdone, ← hdone'] at hrow hstream
  rw [Store.map_toDraft_entriesFor ((hs.serve v).serve v').reached.kept,
    Store.map_toDraft_entriesFor ((hs.serve v').serve v).reached.kept]
  exact ⟨hrow, hstream⟩

/-- Another account is opened before or after a transfer brings its destination past the largest
decimal. -/
theorem apart_commute_brimming :
    (run empty brimming).store.units = [] ∧
    (Visit.moves txC idA idB ten).command.Apart (Visit.opens txD idC ten).command ∧
    (((run empty brimming).store.serve (.opens txD idC ten)).2.serve (.moves txC idA idB ten)).1 =
      some (.failed (.overflow .balance)) := by
  have hidle : (run empty brimming).store.units = [] := by decide +kernel
  have hapart : (Visit.moves txC idA idB ten).command.Apart (Visit.opens txD idC ten).command := by
    refine ⟨by decide, fun t ht => ?_⟩
    cases ht
    decide
  obtain ⟨⟨o, ho, hsecond⟩, -⟩ := apart_commute hidle hapart
  have hover : ((run empty brimming).store.serve (.moves txC idA idB ten)).1 =
      some (.failed (.overflow .balance)) := by decide +kernel
  exact ⟨hidle, hapart, hsecond.trans (ho.symm.trans hover)⟩

end System

end Bookkeeping
