import Bookkeeping.Proofs.Previews
import Mathlib.Data.List.Dedup

/-! # Lookups do not depend on an order of streams

The committed entries can be kept as streams, one for each account, and the streams can be gone through in
any order. A lookup of a transaction gathers its entries from all of them and sorts them by their keys.
As no key is given out twice, there is one such list only: each entry of the transaction stands in it once.
-/
namespace Bookkeeping
namespace Store

variable {s : Store} {t : TransactionId} {streams : List (AccountId × List Entry)}

def stream (s : Store) (id : AccountId) : List Entry := s.entries.filter fun e => e.account = id

/-- The streams of all accounts that have entries, in some order. -/
structure Enumerates (s : Store) (streams : List (AccountId × List Entry)) : Prop where
  nodup : (streams.map Prod.fst).Nodup
  stream : ∀ p ∈ streams, p.2 = s.stream p.1
  covers : ∀ e ∈ s.entries, e.account ∈ streams.map Prod.fst

theorem exists_enumerates (s : Store) : ∃ streams, s.Enumerates streams := by
  let ids := (s.entries.map (·.account)).dedup
  have hfst : (ids.map fun id => (id, s.stream id)).map Prod.fst = ids := by
    simp [Function.comp_def]
  refine ⟨ids.map fun id => (id, s.stream id), ?_, ?_, ?_⟩
  · rw [hfst]
    exact List.nodup_dedup _
  · intro p hp
    obtain ⟨id, -, rfl⟩ := List.mem_map.mp hp
    rfl
  · intro e he
    rw [hfst, List.mem_dedup]
    exact List.mem_map_of_mem he

/-- Entries that are sorted by their accounts are the same entries. -/
theorem flatMap_account_perm {ids : List AccountId} {es : List Entry} (hids : ids.Nodup)
    (hes : ∀ e ∈ es, e.account ∈ ids) :
    (ids.flatMap fun id => es.filter fun e => e.account = id).Perm es := by
  induction ids generalizing es with
  | nil =>
    have hnil : es = [] := List.eq_nil_iff_forall_not_mem.mpr fun e he => List.not_mem_nil (hes e he)
    subst hnil
    exact .refl _
  | cons id rest ih =>
    obtain ⟨hid, hrest⟩ := List.nodup_cons.mp hids
    -- the other accounts share out what is left without this one
    let others := es.filter fun e => !decide (e.account = id)
    have hothers : ∀ e ∈ others, e.account ∈ rest := by
      intro e he
      obtain ⟨hmem, hne⟩ := List.mem_filter.mp he
      have hne : e.account ≠ id := by simpa using hne
      exact (List.mem_cons.mp (hes e hmem)).resolve_left hne
    have hfilter : ∀ other ∈ rest, (es.filter fun e => e.account = other) =
        others.filter fun e => e.account = other := by
      intro other hother
      rw [List.filter_filter]
      apply List.filter_congr
      intro e _
      by_cases he : e.account = other
      · have hne : other ≠ id := fun heq => hid (heq ▸ hother)
        simp [he, hne]
      · simp [he]
    have hsplit : (es.filter (fun e => e.account = id) ++ others).Perm es :=
      List.filter_append_perm (fun e => e.account = id) es
    rw [List.flatMap_cons, List.flatMap_congr hfilter]
    exact ((ih hrest hothers).append_left _).trans hsplit

theorem Enumerates.perm (h : s.Enumerates streams) : (streams.flatMap Prod.snd).Perm s.entries := by
  have hstreams : streams.flatMap Prod.snd = (streams.map Prod.fst).flatMap s.stream := by
    rw [List.flatMap_map]
    exact List.flatMap_congr h.stream
  rw [hstreams]
  exact flatMap_account_perm h.nodup h.covers

/-- The entries of a transaction that some streams hold, in the order of their keys. -/
def gathered (t : TransactionId) (streams : List (AccountId × List Entry)) : List Entry :=
  ((streams.flatMap Prod.snd).filter fun e => e.transaction = t).mergeSort
    fun a b => a.id.value ≤ b.id.value

theorem Enumerates.gathered_eq (h : s.Enumerates streams) (hids : (s.entries.map (·.id.value)).Nodup)
    (t : TransactionId) : gathered t streams = entriesOf t s.entries := by
  refine eq_of_perm_of_pairwise (nodup_entriesOf hids t) ?_ (pairwise_sort _) (pairwise_sort _)
  refine (List.mergeSort_perm _ _).trans (.trans ?_ (List.mergeSort_perm _ _).symm)
  exact h.perm.filter _

theorem Integral.nodup_entries (h : s.Integral) : (s.entries.map (·.id.value)).Nodup := by
  have hids := h.ids
  rw [written, List.map_append] at hids
  exact hids.of_append_left

end Store

namespace Usage

open Store

/-- Whatever units of work have done with an empty store, a lookup of a transaction finds each committed
entry of it once and nothing else, in the strict order of the keys, and it finds the same in whatever
order the streams are gone through. -/
theorem finds_each_once (uses : List Use) (t : TransactionId) :
    let s := ((fresh [] [] 0).useAll uses).store
    ∃ found, s.respond (.findByTransaction t) = .replied (.ok found) s ∧
      found.Nodup ∧
      (∀ e, e ∈ found ↔ e ∈ s.entries ∧ e.transaction = t) ∧
      found.Pairwise (·.id.value < ·.id.value) ∧
      (∃ streams, s.Enumerates streams) ∧
      ∀ streams, s.Enumerates streams → gathered t streams = found := by
  intro s
  obtain ⟨-, hintegral⟩ := integral_useAll uses
  have hids : (s.entries.map (·.id.value)).Nodup := hintegral.nodup_entries
  refine ⟨entriesOf t s.entries, rfl, ?_, ?_, pairwise_entriesOf hids t, s.exists_enumerates, ?_⟩
  · exact (nodup_entriesOf hids t).of_map
  · intro e
    exact mem_entriesOf
  · intro streams h
    exact h.gathered_eq hids t

/-- Two units of work append under one transaction, and the one that has appended last commits first. A
third one is rolled back. -/
def scattered : List Use :=
  let request : Request := ⟨System.txA, System.epoch⟩
  [.access (.call .openUnit), .access (.call .openUnit), .access (.call .openUnit),
    .access (.call (.append ⟨0⟩ [request.draft .standard System.idB .first (.opened System.ten)])),
    .access (.call (.append ⟨2⟩ [request.draft .standard System.idA .first (.opened System.ten)])),
    .access (.call (.append ⟨1⟩ [request.draft .standard System.idA .first (.opened System.ten)])),
    .access (.call (.rollback ⟨2⟩)), .access (.call (.commit ⟨1⟩)), .access (.call (.commit ⟨0⟩))]

theorem finds_each_once_scattered :
    let s := ((fresh [] [] 0).useAll scattered).store
    s.entries.map (·.id.value) = [3, 1] ∧
    ∃ found, s.respond (.findByTransaction System.txA) = .replied (.ok found) s ∧
      found.length = 2 ∧
      found.Pairwise (·.id.value < ·.id.value) ∧
      gathered System.txA [(System.idA, s.stream System.idA), (System.idB, s.stream System.idB)] =
        found ∧
      gathered System.txA [(System.idB, s.stream System.idB), (System.idA, s.stream System.idA)] =
        found := by
  intro s
  obtain ⟨found, hfound, -, -, horder, -, hsame⟩ := finds_each_once scattered System.txA
  have hlength : (entriesOf System.txA s.entries).length = 2 :=
    (List.mergeSort_perm _ _).length_eq.trans (by decide +kernel)
  have hab : s.Enumerates [(System.idA, s.stream System.idA), (System.idB, s.stream System.idB)] :=
    ⟨by decide, by simp, by decide +kernel⟩
  have hba : s.Enumerates [(System.idB, s.stream System.idB), (System.idA, s.stream System.idA)] :=
    ⟨by decide, by simp, by decide +kernel⟩
  cases hfound
  exact ⟨by decide +kernel, _, rfl, hlength, horder, hsame _ hab, hsame _ hba⟩

end Usage

end Bookkeeping
