import Bookkeeping.Proofs.LogIntegrity
import Bookkeeping.Proofs.SoloRuns

/-! # Stores that resemble each other

Two stores that are used by one command at a time resemble each other if they have the same book and
their open units of work have written the same. They may differ in the keys of their entries and in
the names of their units. A command cannot tell them apart: their replies differ only in parts that no
command looks at.
-/
namespace Bookkeeping
open Bookkeeping.Time

/-! ## Keys in ascending order -/

/-- The keys of entries ascend up to a last key, and their times of storing are not known. -/
structure Ascends (es : List Entry) (key : Nat) : Prop where
  order : es.Pairwise fun e e' => e.id.value < e'.id.value
  range : ∀ e ∈ es, e.id.value ≤ key
  plain : ∀ e ∈ es, e.storedAt = none

namespace Ascends

variable {es es' : List Entry} {key key' : Nat}

theorem nil (key : Nat) : Ascends [] key := ⟨.nil, by simp, by simp⟩

theorem mono (h : Ascends es key) (hsub : es'.Sublist es) (hkey : key ≤ key') :
    Ascends es' key' where
  order := h.order.sublist hsub
  range e he := by
    have hle := h.range e (hsub.subset he)
    omega
  plain e he := h.plain e (hsub.subset he)

theorem concat (h : Ascends es key) (d : Draft) :
    Ascends (es ++ [d.stored ⟨(key + 1 : Nat)⟩ none]) (key + 1) where
  order := by
    refine List.pairwise_append.mpr ⟨h.order, List.pairwise_singleton _ _, ?_⟩
    intro e he e' he'
    have hle := h.range e he
    rw [List.mem_singleton.mp he']
    simp only [Draft.stored]
    omega
  range e he := by
    rcases List.mem_append.mp he with he | he
    · have hle := h.range e he
      omega
    · rw [List.mem_singleton.mp he]
      exact Int.le_refl _
  plain e he := by
    rcases List.mem_append.mp he with he | he
    · exact h.plain e he
    · rw [List.mem_singleton.mp he]
      rfl

theorem stage {free : List Entry → Draft → Bool} {staged staged' : List Entry} {drafts : List Draft}
    (h : Ascends (es ++ staged) key)
    (hstage : Store.stage free key staged drafts = (some staged', key')) :
    Ascends (es ++ staged') key' := by
  induction drafts generalizing key staged with
  | nil =>
    cases hstage
    exact h
  | cons d rest ih =>
    rw [Store.stage] at hstage
    split at hstage
    · refine ih ?_ hstage
      rw [← List.append_assoc]
      exact h.concat d
    · cases hstage

end Ascends

/-! ## Stores that differ in keys and names -/

structure WorkUnit.Alike (w w' : WorkUnit) : Prop where
  rows : w.rows = w'.rows
  held : w.held = w'.held
  drafts : w.entries.map (·.toDraft) = w'.entries.map (·.toDraft)

abbrev Names := Option (UnitId × UnitId)

namespace Store

inductive Resembles : Names → Store → Store → Prop
  | quiet {s s' : Store} (hs : s.Quiet) (hs' : s'.Quiet) (book : s.book = s'.book)
      (ascends : Ascends s.entries s.lastKey) (ascends' : Ascends s'.entries s'.lastKey) :
      Resembles none s s'
  | holding {s s' : Store} {u u' : UnitId} {w w' : WorkUnit} (hs : s.waiting = [])
      (hs' : s'.waiting = []) (book : s.book = s'.book) (alike : w.Alike w')
      (ascends : Ascends (s.entries ++ w.entries) s.lastKey)
      (ascends' : Ascends (s'.entries ++ w'.entries) s'.lastKey) :
      Resembles (some (u, u')) (s.holding u w) (s'.holding u' w')

variable {s s' : Store} {u u' : UnitId} {w w' : WorkUnit}

theorem isEmpty_entriesOf (t : TransactionId) (es : List Entry) :
    (entriesOf t es).isEmpty = !(es.map (·.toDraft)).any (·.transaction = t) := by
  have hlength : (entriesOf t es).length = (es.filter fun e => e.transaction = t).length :=
    List.length_mergeSort _
  rw [Bool.eq_iff_iff, List.isEmpty_iff_length_eq_zero, hlength, List.length_eq_zero_iff,
    List.filter_eq_nil_iff]
  simp

theorem isEmpty_entriesOfIn (t : TransactionId) :
    ((s.holding u w).entriesOfIn u t).isEmpty =
      !(s.book.drafts ++ w.entries.map (·.toDraft)).any (·.transaction = t) := by
  have hcommitted := isEmpty_entriesOf t s.entries
  have hlength : ((s.holding u w).entriesOfIn u t).length =
      (entriesOf t s.entries ++ w.entries.filter fun e => e.transaction = t).length := by
    rw [entriesOfIn, unit_holding]
    exact List.length_mergeSort _
  rw [Bool.eq_iff_iff, List.isEmpty_iff] at hcommitted
  rw [Bool.eq_iff_iff, List.isEmpty_iff_length_eq_zero, hlength, List.length_eq_zero_iff,
    List.append_eq_nil_iff, hcommitted, List.filter_eq_nil_iff]
  simp [book]

theorem lastSequence_lastIn (id : AccountId) :
    EntryBatch.lastSequence (foundOr "event" ((s.holding u w).lastIn u id)) =
      .ok (Book.lastNumber ⟨s.rows, s.book.drafts ++ w.entries.map (·.toDraft)⟩ id) := by
  have hlast := lastSequence_lastOf { s with entries := s.entries ++ w.entries } id
  rw [lastIn_eq, entriesIn, unit_holding]
  rw [book, List.map_append] at hlast
  exact hlast

/-! ### Drafts that are accepted -/

theorem isFree_holding (d : Draft) (staged : List Entry) :
    (s.holding u w).isFree u staged d =
      (!decide (d.key ∈ s.book.drafts.map Draft.key) &&
        !decide (d.key ∈ ((w.entries ++ staged).map (·.toDraft)).map Draft.key)) := by
  have htaken : (s.holding u w).Taken d.key ↔ d.key ∈ s.book.drafts.map Draft.key := by
    simp [Taken, holding, book, Entry.key]
  rw [isFree, unit_holding]
  congr 1
  · simp only [htaken]
  · rw [Bool.eq_iff_iff]
    rw [List.map_map, List.all_eq_true, Bool.not_eq_true', decide_eq_false_iff_not, List.mem_map]
    simp only [decide_eq_true_eq, not_exists, not_and]
    rfl

theorem isSome_stage {free free' : List Entry → Draft → Bool}
    (hfree : ∀ staged staged' d, staged.map (·.toDraft) = staged'.map (·.toDraft) →
      free staged d = free' staged' d) (key key' : Nat) {staged staged' : List Entry}
    (hstaged : staged.map (·.toDraft) = staged'.map (·.toDraft)) (drafts : List Draft) :
    (stage free key staged drafts).1.isSome = (stage free' key' staged' drafts).1.isSome := by
  induction drafts generalizing key key' staged staged' with
  | nil => rfl
  | cons d rest ih =>
    rw [stage, stage, hfree staged staged' d hstaged]
    split
    · apply ih
      simp [hstaged]
    · rfl

theorem committable_holding : (s.holding u w).Committable w ↔
    ((w.entries.map (·.toDraft)).map Draft.key).Nodup ∧
      ∀ d ∈ w.entries.map (·.toDraft), d.key ∉ s.book.drafts.map Draft.key := by
  rw [Committable, List.map_map]
  refine and_congr Iff.rfl ?_
  simp [Taken, holding, book, Entry.key]

theorem respond_lockAccount_held {id : AccountId} (hid : id ∈ w.held) :
    (s.holding u w).respond (.lockAccount u id) =
      .replied (foundOr "account" ((findRow id w.rows).or (findRow id s.rows)))
        (s.holding u w) := by
  rw [respond, lock, unit_holding, if_pos hid, rowIn, unit_holding]
  rfl

theorem append_holding (drafts : List Draft) :
    ((s.holding u w).append u drafts) =
      match stage ((s.holding u w).isFree u) s.lastKey [] drafts with
      | (some new, key) => (.ok (),
          { s with lastKey := key }.holding u { w with entries := w.entries ++ new })
      | (none, key) => (.error (.conflict .append), { s with lastKey := key }.holding u w) := by
  have hkey : (s.holding u w).lastKey = s.lastKey := rfl
  rw [append, hkey]
  rcases stage ((s.holding u w).isFree u) s.lastKey [] drafts with ⟨_ | new, key⟩
  · rfl
  · simp only [unit_holding]
    exact congrArg (Prod.mk _) (setUnit_holding { s with lastKey := _ } u w _)

theorem commit_holding (hw : s.waiting = []) :
    (s.holding u w).commit u = if (s.holding u w).Committable w then
        (.ok (), { s with
          rows := w.rows.foldr putRow s.rows
          entries := s.entries ++ w.entries
          units := [] })
      else (.error (.conflict .commit), { s with units := [] }) := by
  rw [commit, unit_holding]
  split
  · have hclose : ((s.holding u w).merge w).close u = _ :=
      close_holding (s := { s with
        rows := w.rows.foldr putRow s.rows
        entries := s.entries ++ w.entries }) hw
    rw [hclose]
  · rw [close_holding hw]

end Store

/-! ## Calls and replies -/

/-- Calls that differ only in the name of the open unit of work. -/
inductive Call.Pairs : Names → Call → Call → Prop
  | findAccount (id : AccountId) : Pairs none (.findAccount id) (.findAccount id)
  | findByTransaction (t : TransactionId) : Pairs none (.findByTransaction t) (.findByTransaction t)
  | findLast (id : AccountId) : Pairs none (.findLast id) (.findLast id)
  | openUnit : Pairs none .openUnit .openUnit
  | lockAccount (u u' : UnitId) (id : AccountId) :
      Pairs (some (u, u')) (.lockAccount u id) (.lockAccount u' id)
  | upsertAccount (u u' : UnitId) (a : Account) :
      Pairs (some (u, u')) (.upsertAccount u a) (.upsertAccount u' a)
  | append (u u' : UnitId) (drafts : List Draft) :
      Pairs (some (u, u')) (.append u drafts) (.append u' drafts)
  | findByTransactionIn (u u' : UnitId) (t : TransactionId) :
      Pairs (some (u, u')) (.findByTransactionIn u t) (.findByTransactionIn u' t)
  | findLastIn (u u' : UnitId) (id : AccountId) :
      Pairs (some (u, u')) (.findLastIn u id) (.findLastIn u' id)
  | commit (u u' : UnitId) : Pairs (some (u, u')) (.commit u) (.commit u')

/-- Replies that differ only in keys and names, and the names after them. Of the entries of a
transaction it counts only whether there are any, of the last entry only its number. -/
inductive Call.Echoes : Names → (c c' : Call) → c.Reply → c'.Reply → Names → Prop
  | findAccount (id : AccountId) (r : Except StoreError Account) :
      Echoes none (.findAccount id) (.findAccount id) r r none
  | findByTransaction (t : TransactionId) {r r' : Except StoreError (List Entry)}
      (same : r.map (·.isEmpty) = r'.map (·.isEmpty)) :
      Echoes none (.findByTransaction t) (.findByTransaction t) r r' none
  | findLast (id : AccountId) {r r' : Except StoreError Entry}
      (same : EntryBatch.lastSequence r = EntryBatch.lastSequence r') :
      Echoes none (.findLast id) (.findLast id) r r' none
  | opened (u u' : UnitId) : Echoes none .openUnit .openUnit (.ok u) (.ok u') (some (u, u'))
  | notOpened (e : StoreError) : Echoes none .openUnit .openUnit (.error e) (.error e) none
  | lockAccount (u u' : UnitId) (id : AccountId) (r : Except StoreError Account) :
      Echoes (some (u, u')) (.lockAccount u id) (.lockAccount u' id) r r (some (u, u'))
  | upsertAccount (u u' : UnitId) (a : Account) (r : Except StoreError Unit) :
      Echoes (some (u, u')) (.upsertAccount u a) (.upsertAccount u' a) r r (some (u, u'))
  | append (u u' : UnitId) (drafts : List Draft) (r : Except StoreError Unit) :
      Echoes (some (u, u')) (.append u drafts) (.append u' drafts) r r (some (u, u'))
  | findByTransactionIn (u u' : UnitId) (t : TransactionId)
      {r r' : Except StoreError (List Entry)} (same : r.map (·.isEmpty) = r'.map (·.isEmpty)) :
      Echoes (some (u, u')) (.findByTransactionIn u t) (.findByTransactionIn u' t) r r'
        (some (u, u'))
  | findLastIn (u u' : UnitId) (id : AccountId) {r r' : Except StoreError Entry}
      (same : EntryBatch.lastSequence r = EntryBatch.lastSequence r') :
      Echoes (some (u, u')) (.findLastIn u id) (.findLastIn u' id) r r' (some (u, u'))
  | commit (u u' : UnitId) (r : Except StoreError Unit) :
      Echoes (some (u, u')) (.commit u) (.commit u') r r none

namespace Call

variable {o o' : Names} {c c' : Call} {r : c.Reply} {r' : c'.Reply}

theorem Pairs.operation (h : Pairs o c c') : c.operation = c'.operation := by
  cases h <;> rfl

/-- The same error is an echo, except at a commit. -/
theorem Pairs.refused (h : Pairs o c c') (hc : c.operation ≠ .commit) (e : StoreError) :
    Echoes o c c' (.error e) (.error e) o := by
  cases h with
  | findAccount id => exact .findAccount id _
  | findByTransaction t => exact .findByTransaction t rfl
  | findLast id => exact .findLast id rfl
  | openUnit => exact .notOpened e
  | lockAccount u u' id => exact .lockAccount u u' id _
  | upsertAccount u u' a => exact .upsertAccount u u' a _
  | append u u' drafts => exact .append u u' drafts _
  | findByTransactionIn u u' t => exact .findByTransactionIn u u' t rfl
  | findLastIn u u' id => exact .findLastIn u u' id rfl
  | commit u u' => exact absurd rfl hc

def Knows (o : Names) (v v' : Option UnitId) : Prop :=
  ∀ u u', o = some (u, u') → v = some u ∧ v' = some u'

theorem Echoes.knows (h : Echoes o c c' r r' o') {v v' : Option UnitId} (hk : Knows o v v') :
    Knows o' (unitAfter v c r) (unitAfter v' c' r') := by
  cases h with
  | opened u u' =>
    rintro _ _ ⟨⟩
    exact ⟨rfl, rfl⟩
  | commit u u' r =>
    rintro _ _ ⟨⟩
  | _ => exact hk

end Call

/-! ## Answers of stores that resemble each other -/

namespace Store

variable {s s' : Store} {o : Names} {c c' : Call}

section Holding

variable {u u' : UnitId} {w w' : WorkUnit} (hs : s.waiting = []) (hs' : s'.waiting = [])
  (hbook : s.book = s'.book) (halike : w.Alike w')
  (ha : Ascends (s.entries ++ w.entries) s.lastKey)
  (ha' : Ascends (s'.entries ++ w'.entries) s'.lastKey)
include hs hs' hbook halike ha ha'

theorem resembles_append (drafts : List Draft) :
    ∃ r t t', (s.holding u w).append u drafts = (r, t) ∧
      (s'.holding u' w').append u' drafts = (r, t') ∧ t.Resembles (some (u, u')) t' := by
  have hfree (staged staged' : List Entry) (d : Draft)
      (hstaged : staged.map (·.toDraft) = staged'.map (·.toDraft)) :
      (s.holding u w).isFree u staged d = (s'.holding u' w').isFree u' staged' d := by
    simp only [isFree_holding, hbook, List.map_append (f := Entry.toDraft), halike.drafts, hstaged]
  have hsome := isSome_stage hfree s.lastKey s'.lastKey (rfl : ([] : List Entry).map _ = _) drafts
  rw [append_holding, append_holding]
  rcases hstage : stage ((s.holding u w).isFree u) s.lastKey [] drafts with ⟨_ | new, key⟩ <;>
    rcases hstage' : stage ((s'.holding u' w').isFree u') s'.lastKey [] drafts with
      ⟨_ | new', key'⟩ <;> rw [hstage, hstage'] at hsome <;> try cases hsome
  · have hle := (exists_stage ((s.holding u w).isFree u) s.lastKey [] drafts).1
    have hle' := (exists_stage ((s'.holding u' w').isFree u') s'.lastKey [] drafts).1
    rw [hstage] at hle
    rw [hstage'] at hle'
    exact ⟨_, _, _, rfl, rfl, .holding hs hs' hbook halike (ha.mono (List.Sublist.refl _) hle)
      (ha'.mono (List.Sublist.refl _) hle')⟩
  · have hdrafts := stage_toDraft hstage
    rw [← List.append_nil (s.entries ++ w.entries)] at ha
    rw [← List.append_nil (s'.entries ++ w'.entries)] at ha'
    have hnew := ha.stage hstage
    have hnew' := ha'.stage hstage'
    rw [List.append_assoc] at hnew hnew'
    refine ⟨_, _, _, rfl, rfl, .holding hs hs' hbook ⟨halike.rows, halike.held, ?_⟩ hnew hnew'⟩
    rw [List.map_append, List.map_append, hdrafts, stage_toDraft hstage', halike.drafts]

theorem resembles_commit :
    ∃ r t t', (s.holding u w).commit u = (r, t) ∧ (s'.holding u' w').commit u' = (r, t') ∧
      t.Resembles none t' := by
  have hcommittable : (s.holding u w).Committable w ↔ (s'.holding u' w').Committable w' := by
    rw [committable_holding, committable_holding, hbook, halike.drafts]
  rw [commit_holding hs, commit_holding hs']
  by_cases hc : (s.holding u w).Committable w
  · rw [if_pos hc, if_pos (hcommittable.mp hc)]
    refine ⟨_, _, _, rfl, rfl, .quiet ⟨rfl, hs⟩ ⟨rfl, hs'⟩ ?_ ha ha'⟩
    have hrows : s.rows = s'.rows := congrArg Book.rows hbook
    have hdrafts : s.entries.map (·.toDraft) = s'.entries.map (·.toDraft) :=
      congrArg Book.drafts hbook
    simp only [book, List.map_append, hrows, hdrafts, halike.rows, halike.drafts]
  · rw [if_neg hc, if_neg (hcommittable.not.mp hc)]
    refine ⟨_, _, _, rfl, rfl, .quiet ⟨rfl, hs⟩ ⟨rfl, hs'⟩ hbook ?_ ?_⟩
    · exact ha.mono (List.sublist_append_left _ _) (Nat.le_refl _)
    · exact ha'.mono (List.sublist_append_left _ _) (Nat.le_refl _)

end Holding

/-- A call to a store that is used by one command at a time is answered at once, and a pair of calls to
stores that resemble each other has replies that are echoes. -/
theorem Resembles.respond (h : s.Resembles o s') (hc : Call.Pairs o c c') :
    ∃ r r' t t' o', s.respond c = .replied r t ∧ s'.respond c' = .replied r' t' ∧
      Call.Echoes o c c' r r' o' ∧ t.Resembles o' t' := by
  cases h with
  | quiet hs hs' hbook ha ha' =>
    have hsame := Resembles.quiet hs hs' hbook ha ha'
    cases hc with
    | findAccount id =>
      have hrows : s.rows = s'.rows := congrArg Book.rows hbook
      refine ⟨_, _, _, _, _, rfl, rfl, ?_, hsame⟩
      rw [hrows]
      exact .findAccount id _
    | findByTransaction t =>
      have hdrafts : s.entries.map (·.toDraft) = s'.entries.map (·.toDraft) :=
        congrArg Book.drafts hbook
      refine ⟨_, _, _, _, _, rfl, rfl, .findByTransaction t ?_, hsame⟩
      simp only [Except.map, isEmpty_entriesOf, hdrafts]
    | findLast id =>
      refine ⟨_, _, _, _, _, rfl, rfl, .findLast id ?_, hsame⟩
      rw [lastSequence_lastOf, lastSequence_lastOf, hbook]
    | openUnit =>
      refine ⟨_, _, _, _, _, respond_openUnit hs, respond_openUnit hs', .opened _ _, ?_⟩
      refine .holding hs.2 hs'.2 hbook ⟨rfl, rfl, rfl⟩ ?_ ?_ <;> simpa
  | @holding s s' u u' w w' hs hs' hbook halike ha ha' =>
    have hsame : (s.holding u w).Resembles (some (u, u')) (s'.holding u' w') :=
      .holding hs hs' hbook halike ha ha'
    have hrows : s.rows = s'.rows := congrArg Book.rows hbook
    cases hc with
    | lockAccount _ _ id =>
      have hrow : (findRow id w.rows).or (findRow id s.rows) =
          (findRow id w'.rows).or (findRow id s'.rows) := by rw [halike.rows, hrows]
      by_cases hid : id ∈ w.held
      · have hid' : id ∈ w'.held := halike.held ▸ hid
        refine ⟨_, _, _, _, _, respond_lockAccount_held hid, respond_lockAccount_held hid', ?_, hsame⟩
        rw [hrow]
        exact .lockAccount u u' id _
      · have hid' : id ∉ w'.held := halike.held ▸ hid
        refine ⟨_, _, _, _, _, respond_lockAccount hid, respond_lockAccount hid', ?_,
          .holding hs hs' hbook ⟨halike.rows, ?_, halike.drafts⟩ ha ha'⟩
        · rw [hrow]
          exact .lockAccount u u' id _
        · rw [halike.held]
    | upsertAccount _ _ a =>
      refine ⟨_, _, _, _, _, respond_upsertAccount a, respond_upsertAccount a,
        .upsertAccount u u' a _, .holding hs hs' hbook ⟨?_, halike.held, halike.drafts⟩ ha ha'⟩
      rw [halike.rows]
    | append _ _ drafts =>
      obtain ⟨r, t, t', happend, happend', hresembles⟩ :=
        resembles_append hs hs' hbook halike ha ha' drafts
      refine ⟨r, r, t, t', _, ?_, ?_, .append u u' drafts r, hresembles⟩
      · rw [Store.respond, happend]
      · rw [Store.respond, happend']
    | findByTransactionIn _ _ t =>
      refine ⟨_, _, _, _, _, rfl, rfl, .findByTransactionIn u u' t ?_, hsame⟩
      simp only [Except.map, isEmpty_entriesOfIn, hbook, halike.drafts]
    | findLastIn _ _ id =>
      refine ⟨_, _, _, _, _, rfl, rfl, .findLastIn u u' id ?_, hsame⟩
      rw [lastSequence_lastIn, lastSequence_lastIn, hbook, hrows, halike.drafts]
    | commit =>
      obtain ⟨r, t, t', hcommit, hcommit', hresembles⟩ := resembles_commit hs hs' hbook halike ha ha'
      refine ⟨r, r, t, t', _, ?_, ?_, .commit u u' r, hresembles⟩
      · rw [Store.respond, hcommit]
      · rw [Store.respond, hcommit']

theorem Resembles.quiet_both (h : s.Resembles none s') : s.Quiet ∧ s'.Quiet := by
  cases h with
  | quiet hs hs' => exact ⟨hs, hs'⟩

theorem Resembles.close {u u' : UnitId} (h : s.Resembles (some (u, u')) s') :
    (s.close u).Resembles none (s'.close u') := by
  cases h with
  | holding hs hs' hbook halike ha ha' =>
    rw [close_holding hs, close_holding hs']
    refine .quiet ⟨rfl, hs⟩ ⟨rfl, hs'⟩ hbook ?_ ?_
    · exact ha.mono (List.sublist_append_left _ _) (Nat.le_refl _)
    · exact ha'.mono (List.sublist_append_left _ _) (Nat.le_refl _)

end Store

end Bookkeeping
