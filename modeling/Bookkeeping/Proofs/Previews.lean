import Bookkeeping.Proofs.LogIntegrity
import Bookkeeping.Proofs.RowLocks
import Bookkeeping.Proofs.UnitReads

/-! # Reads show what a commit will leave

What a unit of work reads through itself is what everyone reads right after its commit, as long as this
commit would succeed: a row that it wrote stands in for the committed one, the last entry of an account
is the later of two last ones, and the entries of a transaction are put in the order of their keys, which
is one order only because no key is given out twice.
-/
namespace Bookkeeping
namespace Store

variable {s s' : Store} {u v : UnitId} {id : AccountId}

theorem Draws.release (h : (s.units.map Prod.fst).Nodup) (u : UnitId) (id : AccountId) :
    s.Draws (s.release u id) [] := by
  have hnames : ((s.dropLock u id).units.map Prod.fst).Nodup := by
    rwa [dropLock, map_fst_setUnit]
  refine .same (entries_release s u id) ?_ ?_
  · exact (staged_handOver hnames id).trans (staged_setUnit_same h rfl)
  · rw [Store.release, lastKey_handOver]
    rfl

theorem nodup_entriesIn (h : s.Integral) (hs : s.Sound) (u : UnitId) :
    ((s.entriesIn u).map (·.id.value)).Nodup := by
  -- keys are unlike in all that was ever written, committed or not
  have hperm : s.written.Perm (s.entriesIn u ++ (s.without u).staged) := by
    rw [written, entriesIn, List.append_assoc]
    exact (staged_perm hs.names u).append_left _
  have hall : ((s.entriesIn u ++ (s.without u).staged).map (·.id.value)).Nodup :=
    (hperm.map _).nodup_iff.mp h.ids
  rw [List.map_append] at hall
  exact hall.of_append_left

/-! ## A commit that would succeed -/

def committed (s : Store) (u : UnitId) : Store := (s.merge (s.unit u)).close u

theorem respond_commit_of_committable (h : s.Committable (s.unit u)) :
    s.respond (.commit u) = .replied (.ok ()) (s.committed u) := by
  simp only [respond, commit, if_pos h, committed]

theorem entries_committed (s : Store) (u : UnitId) : (s.committed u).entries = s.entriesIn u := by
  rw [committed, entries_close]
  rfl

theorem findRow_committed (s : Store) (u : UnitId) (id : AccountId) :
    findRow id (s.committed u).rows = s.rowIn u id := by
  rw [committed, rows_close, merge, findRow_foldr_putRow]
  rfl

/-- A lock that no other unit of work holds is given at once, and this changes nothing that a commit
depends on. -/
theorem respond_lockAccount_of_free (hs : s.Sound)
    (hfree : ∀ v, v ≠ u → id ∉ (s.unit v).held) :
    ∃ s', s.respond (.lockAccount u id) = .replied (foundOr "account" (s.rowIn u id)) s' ∧
      s'.rows = s.rows ∧ s'.entries = s.entries ∧ (s'.unit u).rows = (s.unit u).rows ∧
      (s'.unit u).entries = (s.unit u).entries := by
  by_cases hheld : id ∈ (s.unit u).held
  · exact ⟨s, by simp only [respond, lock, if_pos hheld], rfl, rfl, rfl, rfl⟩
  · have hlocked : ¬s.Locked id := by
      intro hlocked
      obtain ⟨v, hv⟩ := hs.exists_holder hlocked
      refine hfree v ?_ hv
      rintro rfl
      exact hheld hv
    have hkeeps := Keeps.giveLock s u id u
    exact ⟨s.giveLock u id, by simp only [respond, lock, if_neg hheld, if_neg hlocked], rfl, rfl,
      hkeeps.rows, hkeeps.entries⟩

end Store

namespace Usage

open Store

theorem integral_use {x : Usage} (hs : x.store.Sound) (h : x.store.Integral) (e : Use) :
    (x.use e).store.Integral := by
  rcases x.use_cases e with ⟨a, -, he⟩ | ⟨u, id, -, -, he⟩ | he <;> rw [he]
  · exact (integral_step hs h a).1
  · exact (h.draws (.release hs.names u id) (.inl (entries_release _ u id))).1
  · exact h

theorem integral_useAll (uses : List Use) :
    ((fresh [] [] 0).useAll uses).store.Sound ∧ ((fresh [] [] 0).useAll uses).store.Integral := by
  induction uses using List.reverseRecOn with
  | nil => exact ⟨sound_empty, integral_empty⟩
  | append_singleton uses e ih =>
    rw [useAll_concat]
    exact ⟨sound_use ih.1 e, integral_use ih.1 ih.2 e⟩

/-- Whatever units of work have done with an empty store, a unit whose commit would succeed now reads
through itself, of every account and every transaction, what is read of it right after this commit: the
same row, the same last entry and the same entries in the same order, or that there are none. A row is
read as soon as no other unit holds its lock, and taking the lock does not make the commit fail or leave
another row. -/
theorem reads_predict_commit (uses : List Use) (u : UnitId) (after : Store) :
    let s := ((fresh [] [] 0).useAll uses).store
    s.respond (.commit u) = .replied (.ok ()) after →
      (∀ id, (∀ v, v ≠ u → id ∉ (s.unit v).held) → ∃ r s' after',
        s.respond (.lockAccount u id) = .replied r s' ∧
        after.respond (.findAccount id) = .replied r after ∧
        s'.respond (.commit u) = .replied (.ok ()) after' ∧
        after'.respond (.findAccount id) = .replied r after') ∧
      (∀ id, ∃ r, s.respond (.findLastIn u id) = .replied r s ∧
        after.respond (.findLast id) = .replied r after) ∧
      ∀ t, ∃ es, s.respond (.findByTransactionIn u t) = .replied (.ok es) s ∧
        after.respond (.findByTransaction t) = .replied (.ok es) after := by
  intro s hr
  obtain ⟨hs, hintegral⟩ := integral_useAll uses
  obtain ⟨hcommittable, hafter⟩ := (Told.answered hr).commit
  change after = s.committed u at hafter
  subst hafter
  refine ⟨?_, ?_, ?_⟩
  · intro id hfree
    obtain ⟨s', hlock, hrows, hentries, hwritten, hstaged⟩ := respond_lockAccount_of_free hs hfree
    have hcommittable' : s'.Committable (s'.unit u) := by
      obtain ⟨hnodup, hnew⟩ := hcommittable
      refine ⟨hstaged ▸ hnodup, fun e he => ?_⟩
      rw [Taken, hentries]
      exact hnew e (hstaged ▸ he)
    refine ⟨_, s', s'.committed u, hlock, ?_, respond_commit_of_committable hcommittable', ?_⟩
    · rw [respond, findRow_committed]
    · rw [respond, findRow_committed, rowIn, rowIn, hwritten, hrows]
  · intro id
    refine ⟨_, rfl, ?_⟩
    rw [respond, entries_committed, lastIn_eq]
  · intro t
    refine ⟨_, rfl, ?_⟩
    rw [respond, entries_committed, entriesOfIn_eq (nodup_entriesIn hintegral hs u)]

/-- An account has an entry, and an open unit of work has written another one and its row. -/
def halfway : List Use :=
  let request : Request := ⟨System.txA, System.epoch⟩
  [.access (.call .openUnit),
    .access (.call (.append ⟨0⟩ [request.draft .standard System.idA .first (.opened System.ten)])),
    .access (.call (.commit ⟨0⟩)), .access (.call .openUnit),
    .access (.call (.append ⟨1⟩ [request.draft .standard System.idA .second
      (.deposited Workflow.systemSource System.ten)])),
    .access (.call (.upsertAccount ⟨1⟩ (.opened System.idA System.ten System.epoch)))]

theorem reads_predict_commit_halfway :
    let s := ((fresh [] [] 0).useAll halfway).store
    s.respond (.commit ⟨1⟩) = .replied (.ok ()) (s.committed ⟨1⟩) ∧
    ∃ es, s.respond (.findByTransactionIn ⟨1⟩ System.txA) = .replied (.ok es) s ∧
      (s.committed ⟨1⟩).respond (.findByTransaction System.txA) =
        .replied (.ok es) (s.committed ⟨1⟩) := by
  intro s
  have hcommittable : s.Committable (s.unit ⟨1⟩) := by decide +kernel
  have hcommit := respond_commit_of_committable hcommittable
  exact ⟨hcommit, (reads_predict_commit halfway ⟨1⟩ _ hcommit).2.2 System.txA⟩

end Usage

end Bookkeeping
