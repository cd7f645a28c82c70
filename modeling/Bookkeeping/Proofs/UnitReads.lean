import Bookkeeping.Store
import Mathlib.Data.List.Induction
import Mathlib.Data.List.Nodup

/-! # What a unit of work reads

A unit of work reads the committed entries together with its own. It looks at both apart, takes the
larger of two largest numbers, and sorts a sorted list with new entries at its end; what it finds is
what it would find in one list.
-/
namespace Bookkeeping

/-! ## The last entry -/

theorem foldl_toList (last : Option Entry) : last.toList.foldl laterEntry none = last := by
  cases last <;> rfl

theorem laterEntry_foldl (best last : Option Entry) (e : Entry) :
    laterEntry ((best.toList ++ last.toList).foldl laterEntry none) e =
      (best.toList ++ (laterEntry last e).toList).foldl laterEntry none := by
  cases best with
  | none => simp only [Option.toList_none, List.nil_append, foldl_toList]
  | some b =>
    cases last with
    | none => rfl
    | some c =>
      by_cases hbc : b.sequence ≤ c.sequence <;> by_cases hce : c.sequence ≤ e.sequence
      all_goals simp only [SequenceNumber.le_def] at hbc hce
      · have hbe : b.sequence.value ≤ e.sequence.value := by omega
        simp [laterEntry, SequenceNumber.le_def, hbc, hce, hbe]
      · simp [laterEntry, SequenceNumber.le_def, hbc, hce]
      · simp [laterEntry, SequenceNumber.le_def, hbc, hce]
      · have hbe : ¬b.sequence.value ≤ e.sequence.value := by omega
        simp [laterEntry, SequenceNumber.le_def, hbc, hce, hbe]

theorem foldl_laterEntry_eq (best : Option Entry) (es : List Entry) :
    es.foldl laterEntry best =
      (best.toList ++ (es.foldl laterEntry none).toList).foldl laterEntry none := by
  induction es using List.reverseRecOn with
  | nil => simp only [List.foldl_nil, Option.toList_none, List.append_nil, foldl_toList]
  | append_singleton es e ih =>
    have hlast (best : Option Entry) :
        (es ++ [e]).foldl laterEntry best = laterEntry (es.foldl laterEntry best) e := by
      rw [List.foldl_append, List.foldl_cons, List.foldl_nil]
    rw [hlast, hlast, ih, laterEntry_foldl]

theorem lastOf_append (id : AccountId) (es es' : List Entry) :
    lastOf id (es ++ es') =
      ((lastOf id es).toList ++ (lastOf id es').toList).foldl laterEntry none := by
  rw [lastOf, List.filter_append, List.foldl_append]
  exact foldl_laterEntry_eq _ _

/-! ## The entries of a transaction -/

variable {t : TransactionId} {es : List Entry} {e : Entry}

theorem mem_entriesOf : e ∈ entriesOf t es ↔ e ∈ es ∧ e.transaction = t := by
  simp [entriesOf]

theorem pairwise_sort (es : List Entry) :
    (es.mergeSort fun a b => a.id.value ≤ b.id.value).Pairwise (·.id.value ≤ ·.id.value) := by
  have htrans (a b c : Entry) (hab : decide (a.id.value ≤ b.id.value) = true)
      (hbc : decide (b.id.value ≤ c.id.value) = true) : decide (a.id.value ≤ c.id.value) = true := by
    simp only [decide_eq_true_eq] at hab hbc ⊢
    omega
  have htotal (a b : Entry) :
      (decide (a.id.value ≤ b.id.value) || decide (b.id.value ≤ a.id.value)) = true := by
    simp only [Bool.or_eq_true, decide_eq_true_eq]
    omega
  exact (List.pairwise_mergeSort htrans htotal es).imp of_decide_eq_true

/-- Entries with keys of their own have one order by their keys only. -/
theorem eq_of_perm_of_pairwise {es es' : List Entry} (hids : (es.map (·.id.value)).Nodup)
    (hperm : es'.Perm es) (h : es.Pairwise (·.id.value ≤ ·.id.value))
    (h' : es'.Pairwise (·.id.value ≤ ·.id.value)) : es' = es := by
  refine hperm.eq_of_pairwise ?_ h' h
  intro a b ha hb hab hba
  exact List.inj_on_of_nodup_map hids (hperm.subset ha) hb (Int.le_antisymm hab hba)

theorem nodup_entriesOf (hids : (es.map (·.id.value)).Nodup) (t : TransactionId) :
    ((entriesOf t es).map (·.id.value)).Nodup := by
  refine ((List.mergeSort_perm _ _).map _).nodup_iff.mpr ?_
  exact hids.sublist (List.filter_sublist.map _)

/-- Keys of their own make an ascending order a strict one. -/
theorem pairwise_entriesOf (hids : (es.map (·.id.value)).Nodup) (t : TransactionId) :
    (entriesOf t es).Pairwise (·.id.value < ·.id.value) := by
  have hle : (entriesOf t es).Pairwise (·.id.value ≤ ·.id.value) := pairwise_sort _
  have hne : (entriesOf t es).Pairwise (·.id.value ≠ ·.id.value) :=
    List.pairwise_map.mp (nodup_entriesOf hids t)
  apply (hle.and hne).imp
  rintro a b ⟨hab, hne⟩
  omega

namespace Store

variable (s : Store) (u : UnitId)

def entriesIn : List Entry := s.entries ++ (s.unit u).entries

theorem lastIn_eq (id : AccountId) : s.lastIn u id = lastOf id (s.entriesIn u) :=
  (lastOf_append id s.entries (s.unit u).entries).symm

variable {s u}

theorem mem_entriesOfIn : e ∈ s.entriesOfIn u t ↔ e ∈ s.entriesIn u ∧ e.transaction = t := by
  simp only [entriesOfIn, entriesIn, List.mem_mergeSort, List.mem_append, mem_entriesOf,
    List.mem_filter, decide_eq_true_eq, or_and_right]

theorem entriesOfIn_perm : (s.entriesOfIn u t).Perm (entriesOf t (s.entriesIn u)) := by
  refine (List.mergeSort_perm _ _).trans (.trans ?_ (List.mergeSort_perm _ _).symm)
  rw [entriesIn, List.filter_append]
  exact (List.mergeSort_perm _ _).append_right _

theorem entriesOfIn_eq (hids : ((s.entriesIn u).map (·.id.value)).Nodup) :
    s.entriesOfIn u t = entriesOf t (s.entriesIn u) :=
  eq_of_perm_of_pairwise (nodup_entriesOf hids t) entriesOfIn_perm (pairwise_sort _) (pairwise_sort _)

end Store
end Bookkeeping
