import Bookkeeping.Proofs.Omissions
import Bookkeeping.Proofs.Singles

/-! # The entries of a transaction

Commands are served one after the other on a store that may fail at any of their calls, and are sent
again, or not. However this goes, a transaction belongs to at most one command that has succeeded. A
lookup then finds the two entries of this command, in the order of their keys; before its success the
lookup finds nothing.
-/
namespace Bookkeeping
open Bookkeeping.Time

/-! ## What a command leaves -/

/-- The two entries that a command leaves: the opening of an account with its first deposit, or the two
sides of a transfer. -/
inductive Command.Leaves (settings : Settings) : Command → Entry → Entry → Prop where
  | opening {request : Request} {id : AccountId} {initial : Amount} {opened deposited : Entry}
      (first : opened.toDraft = request.draft settings id .first (.opened initial))
      (second : deposited.toDraft =
        request.draft settings id .second (.deposited Workflow.systemSource initial)) :
      Leaves settings (.create request id initial) opened deposited
  | movement {request : Request} {source destination : AccountId} {amount : Amount}
      {n m : SequenceNumber} {debited credited : Entry} (ne : source ≠ destination)
      (first : debited.toDraft = request.draft settings source n (.debited destination amount))
      (second : credited.toDraft =
        request.draft settings destination m (.credited source amount)) :
      Leaves settings (.transfer request source destination amount) debited credited

namespace Command

variable {settings : Settings} {command : Command} {s s' : Store}

theorem Leaves.transaction {e e' : Entry} (h : command.Leaves settings e e') :
    command.transaction? = some e.transaction ∧ e'.transaction = e.transaction := by
  cases h with
  | opening first second => rw [first, second]; exact ⟨rfl, rfl⟩
  | movement _ first second => rw [first, second]; exact ⟨rfl, rfl⟩

theorem Leaves.filter_transaction {e e' : Entry} (h : command.Leaves settings e e')
    (t : TransactionId) : [e, e'].filter (fun e => e.transaction = t) =
      if command.transaction? = some t then [e, e'] else [] := by
  obtain ⟨ht, ht'⟩ := h.transaction
  simp only [ht, Option.some.injEq]
  split
  · rename_i he
    simp [he, ht'.trans he]
  · rename_i he
    simp [he, ht' ▸ he]

theorem Lands.exists_leaves {answer : Answer} (h : command.Lands settings s s' answer) :
    ∃ e e', s'.entries = s.entries ++ [e, e'] ∧ command.Leaves settings e e' := by
  cases h with
  | opening _ first second entries => exact ⟨_, _, entries, .opening first second⟩
  | movement ne _ _ _ first second entries => exact ⟨_, _, entries, .movement ne first second⟩

end Command

/-! ## What a log says of a transaction -/

def Deed.completes (t : TransactionId) : Deed × Option Outcome → Bool
  | (.visit v, some (.answered _)) => v.command.transaction? = some t
  | _ => false

theorem Deed.not_completes {t : TransactionId} {d : Deed} {o : Option Outcome}
    (h : ∀ v answer, d = .visit v → o = some (.answered answer) → v.command.transaction? ≠ some t) :
    Deed.completes t (d, o) = false := by
  unfold completes
  split
  · rename_i v answer heq
    obtain ⟨rfl, rfl⟩ := Prod.mk.inj heq
    exact decide_eq_false (h v answer rfl rfl)
  · rfl

/-- Nothing of a transaction has succeeded and it has no entries; or one visit of it has succeeded, and
its entries are the two that the command leaves, in the order of their keys. -/
def Accounted (t : TransactionId) (log : List (Deed × Option Outcome)) (found : List Entry) : Prop :=
  (log.filter (Deed.completes t) = [] ∧ found = []) ∨
    ∃ v answer e e', log.filter (Deed.completes t) = [(.visit v, some (.answered answer))] ∧
      found = [e, e'] ∧ e.id.value < e'.id.value ∧ v.command.Leaves v.settings e e'

namespace Accounted

variable {t : TransactionId} {log : List (Deed × Option Outcome)} {found : List Entry}

theorem mergeSort_eq (h : Accounted t log found) :
    (found.mergeSort fun a b => a.id.value ≤ b.id.value) = found := by
  rcases h with ⟨-, rfl⟩ | ⟨-, -, e, e', -, rfl, hlt, -⟩
  · exact List.mergeSort_nil
  · refine List.mergeSort_of_pairwise (List.pairwise_pair.mpr ?_)
    exact decide_eq_true (Int.le_of_lt hlt)

theorem append_other (h : Accounted t log found) {x : Deed × Option Outcome}
    (hx : Deed.completes t x = false) : Accounted t (log ++ [x]) found := by
  have hlog : (log ++ [x]).filter (Deed.completes t) = log.filter (Deed.completes t) := by
    rw [List.filter_append, List.filter_singleton, hx, cond_false, List.append_nil]
  rwa [Accounted, hlog]

theorem append_first (h : Accounted t log []) {v : Visit} {answer : Answer} {e e' : Entry}
    (ht : v.command.transaction? = some t) (hlt : e.id.value < e'.id.value)
    (hleaves : v.command.Leaves v.settings e e') :
    Accounted t (log ++ [(.visit v, some (.answered answer))]) [e, e'] := by
  have hnone : log.filter (Deed.completes t) = [] := by
    rcases h with ⟨hlog, -⟩ | ⟨-, -, e, e', -, hfound, -⟩
    · exact hlog
    · cases hfound
  refine .inr ⟨v, answer, e, e', ?_, rfl, hlt, hleaves⟩
  rw [List.filter_append, hnone, List.nil_append]
  exact List.filter_eq_self.mpr (by simp [Deed.completes, ht])

end Accounted

/-! ## One deed, and a chronicle -/

namespace Store

def committedOf (s : Store) (t : TransactionId) : List Entry :=
  s.entries.filter fun e => e.transaction = t

variable {s s' : Store} {t : TransactionId}

theorem committedOf_append {new : List Entry} (h : s'.entries = s.entries ++ new) :
    s'.committedOf t = s.committedOf t ++ new.filter fun e => e.transaction = t := by
  rw [committedOf, h, List.filter_append]
  rfl

theorem committedOf_eq_nil (h : ¬s.book.Records t) : s.committedOf t = [] := by
  refine List.filter_eq_nil_iff.mpr fun e he ht => h ?_
  exact ⟨e.toDraft, List.mem_map_of_mem he, of_decide_eq_true ht⟩

end Store

namespace Backend

variable {b : Backend} {t : TransactionId} {log : List (Deed × Option Outcome)}

/-- A visit that succeeds adds the entries of a transaction that had none; all others add none to it. -/
theorem accounted_serve (hready : b.store.Ready) (hf : b.faults.Honest)
    (h : Accounted t log (b.store.committedOf t)) (v : Visit) :
    Accounted t (log ++ [(.visit v, (b.serve v).1)]) ((b.serve v).2.store.committedOf t) := by
  obtain ⟨o, ho, -, ⟨answer, rfl, hlands⟩ | ⟨hsame, hnone⟩⟩ := serve_cases hready v
  · obtain ⟨e, e', hentries, hleaves⟩ := hlands.exists_leaves
    rw [Store.committedOf_append hentries, hleaves.filter_transaction t, ho]
    split
    · rename_i ht
      have hunused : ¬b.store.book.Records t := fun hrecords =>
        not_answered_of_records hf ht hrecords answer ho
      obtain ⟨new, key, hascends, hnew⟩ := serve_ascends hready v
      have hpair : [e, e'] = new := List.append_cancel_left (hentries.symm.trans hnew)
      subst hpair
      have hlt : e.id.value < e'.id.value := by simpa using hascends.order
      rw [Store.committedOf_eq_nil hunused] at h ⊢
      exact h.append_first ht hlt hleaves
    · rename_i ht
      rw [List.append_nil]
      refine h.append_other (Deed.not_completes fun v' _ hv _ => ?_)
      cases hv
      exact ht
  · have hkept : (b.serve v).2.store.committedOf t = b.store.committedOf t := by
      rw [Store.committedOf, hsame.entries]
      rfl
    rw [hkept, ho]
    refine h.append_other (Deed.not_completes fun v' answer hv hanswer => ?_)
    cases hv
    rw [hnone answer (Option.some.inj hanswer)]
    nofun

theorem accounted_undergo (hready : b.store.Ready) (hf : b.faults.Honest)
    (h : Accounted t log (b.store.committedOf t)) (d : Deed) :
    Accounted t (log ++ [(d, (b.undergo d).1)]) ((b.undergo d).2.store.committedOf t) := by
  cases d with
  | visit v => exact accounted_serve hready hf h v
  | _ => exact h.append_other rfl

theorem honest_undergo (hf : b.faults.Honest) (d : Deed) : (b.undergo d).2.faults.Honest := by
  cases d with
  | visit v => exact honest_serve hf v
  | failOn op => exact hf
  | delayLocks delay => exact hf
  | heal => exact fun _ hi => by cases hi

theorem accounted_chronicle (hready : b.store.Ready) (hf : b.faults.Honest)
    (h : Accounted t log (b.store.committedOf t)) (deeds : List Deed) :
    Accounted t (log ++ (b.chronicle deeds).1) ((b.chronicle deeds).2.store.committedOf t) := by
  induction deeds generalizing b log with
  | nil => rwa [chronicle, List.append_nil]
  | cons d rest ih =>
    have hrest := ih (ready_undergo hready d) (honest_undergo hf d) (accounted_undergo hready hf h d)
    rwa [List.append_assoc] at hrest

/-- Commands are served and sent again, operations of the store are made to fail and healed in between,
and other failures were armed at first, as long as none denies what is recorded. At most one command of a
transaction has then succeeded, and the lookup finds its two entries in the order of their keys, or
nothing if there is no such command. -/
theorem transaction_entries {f : Faults} (hf : f.Honest) (deeds : List Deed) (t : TransactionId) :
    ∃ found, (chronicle ⟨{}, f⟩ deeds).2.store.respond (.findByTransaction t) =
        .replied (.ok found) (chronicle ⟨{}, f⟩ deeds).2.store ∧
      Accounted t (chronicle ⟨{}, f⟩ deeds).1 found := by
  have hnone : Accounted t [] (Store.committedOf {} t) := .inl ⟨rfl, rfl⟩
  have haccounted := accounted_chronicle (b := ⟨{}, f⟩) Store.ready_empty hf hnone deeds
  refine ⟨_, ?_, haccounted⟩
  rw [Store.respond, entriesOf]
  exact congrArg (fun es => Store.Response.replied (.ok es) _) haccounted.mergeSort_eq

def fallible : Faults where
  injections := [⟨.findByTransaction, .fails (.failure .findByTransaction .injected), 0, 1⟩,
    ⟨.commit, .fails (.conflict .commit), 0, 1⟩]

/-- The third attempt at an opening succeeds, with keys after those that the second one has used up, and
the fourth one does not. -/
theorem transaction_entries_insistent :
    let deeds : List Deed := List.replicate 4 (.visit (.opens System.txA System.idA System.ten))
    fallible.Honest ∧
    (chronicle ⟨{}, fallible⟩ deeds).1.map (Deed.completes System.txA) = [false, false, true, false] ∧
    (chronicle ⟨{}, fallible⟩ deeds).2.store.entries.map (·.id.value) = [3, 4] ∧
    ∃ found, (chronicle ⟨{}, fallible⟩ deeds).2.store.respond (.findByTransaction System.txA) =
        .replied (.ok found) (chronicle ⟨{}, fallible⟩ deeds).2.store ∧
      Accounted System.txA (chronicle ⟨{}, fallible⟩ deeds).1 found := by
  intro deeds
  have hhonest : fallible.Honest := by
    intro i hi hop
    simp only [fallible, List.mem_cons, List.not_mem_nil, or_false] at hi
    rcases hi with rfl | rfl
    · exact ⟨_, rfl, rfl⟩
    · cases hop
  exact ⟨hhonest, by decide +kernel, by decide +kernel, transaction_entries hhonest deeds System.txA⟩

end Backend

end Bookkeeping
