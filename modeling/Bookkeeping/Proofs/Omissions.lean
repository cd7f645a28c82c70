import Bookkeeping.Proofs.Lockstep
import Mathlib.Logic.Function.Basic

/-! # Failures that are left out

Commands are served one after the other while operations of the store are made to fail and healed in
between. A command that fails may have used up keys, but nothing else is left of it: had it not been
sent, all later commands would have had the same outcomes, and the store would hold the same rows and
the same entries but for their keys, in the same order.
-/
namespace Bookkeeping
open Bookkeeping.Time

/-! ## Chronicles -/

/-- What can happen to a store: a command by itself, or a change of what is armed. -/
inductive Deed where
  | visit (v : Visit)
  | failOn (op : Operation)
  | delayLocks (delay : Duration)
  | heal

def Deed.arms (f : Faults) : Deed → Faults
  | .visit _ => f
  | .failOn op => { f with failing := op :: f.failing }
  | .delayLocks delay => { f with lockDelay := some delay }
  | .heal => {}

namespace Backend

def undergo (b : Backend) : Deed → Option Outcome × Backend
  | .visit v => b.serve v
  | d => (none, { b with faults := d.arms b.faults })

/-- Does deeds in their order, and keeps each with its outcome. -/
def chronicle (b : Backend) : List Deed → List (Deed × Option Outcome) × Backend
  | [] => ([], b)
  | d :: rest =>
    let (o, b) := b.undergo d
    let (later, b) := b.chronicle rest
    ((d, o) :: later, b)

theorem map_fst_chronicle (b : Backend) (deeds : List Deed) :
    (b.chronicle deeds).1.map Prod.fst = deeds := by
  induction deeds generalizing b with
  | nil => rfl
  | cons d rest ih => exact congrArg (d :: ·) (ih _)

end Backend

/-- Some of the visits that failed are left out. -/
inductive Omits : List (Deed × Option Outcome) → List (Deed × Option Outcome) → Prop
  | nil : Omits [] []
  | keep (x : Deed × Option Outcome) {all kept : List (Deed × Option Outcome)}
      (later : Omits all kept) : Omits (x :: all) (x :: kept)
  | leave (v : Visit) {o : Outcome} (failed : ∀ answer, o ≠ .answered answer)
      {all kept : List (Deed × Option Outcome)} (later : Omits all kept) :
      Omits ((.visit v, some o) :: all) kept

theorem Omits.of_cons {x : Deed × Option Outcome} {all kept : List (Deed × Option Outcome)}
    (h : Omits (x :: all) kept) :
    (∃ rest, kept = x :: rest ∧ Omits all rest) ∨
      ∃ v o, x = (.visit v, some o) ∧ (∀ answer, o ≠ .answered answer) ∧ Omits all kept := by
  cases h with
  | keep _ later => exact .inl ⟨_, rfl, later⟩
  | leave v failed later => exact .inr ⟨v, _, rfl, failed, later⟩

/-! ## Other keys -/

/-- An entry under another key. -/
def Entry.rekey (f : Int → Int) (e : Entry) : Entry := { e with id := ⟨f e.id.value⟩ }

/-- A renaming of keys increases strictly on the keys of entries. -/
def Increases (f : Int → Int) (es : List Entry) : Prop :=
  ∀ x ∈ es, ∀ y ∈ es, x.id.value < y.id.value → f x.id.value < f y.id.value

/-- Entries that differ only in keys, which ascend, come from each other by a renaming of the keys that
keeps their order. -/
theorem Ascends.exists_rekey {es es' : List Entry} {key key' : Nat} (h : Ascends es key)
    (h' : Ascends es' key') (hdrafts : es.map (·.toDraft) = es'.map (·.toDraft)) :
    ∃ f : Int → Int, Increases f es' ∧ es = es'.map (Entry.rekey f) := by
  induction es generalizing es' with
  | nil =>
    have hnil : es' = [] := List.map_eq_nil_iff.mp hdrafts.symm
    subst hnil
    exact ⟨id, fun _ _ _ _ => id, rfl⟩
  | cons e rest ih =>
    cases es' with
    | nil => cases hdrafts
    | cons e' rest' =>
      obtain ⟨hdraft, hrest⟩ := List.cons.inj hdrafts
      obtain ⟨hfirst, -⟩ := List.pairwise_cons.mp h.order
      obtain ⟨hfirst', -⟩ := List.pairwise_cons.mp h'.order
      obtain ⟨f, hmono, rfl⟩ := ih (h.mono (List.sublist_cons_self _ _) (Nat.le_refl _))
        (h'.mono (List.sublist_cons_self _ _) (Nat.le_refl _)) hrest
      have hother {x : Entry} (hx : x ∈ rest') :
          Function.update f e'.id.value e.id.value x.id.value = f x.id.value :=
        Function.update_of_ne (Int.ne_of_gt (hfirst' x hx)) _ _
      refine ⟨Function.update f e'.id.value e.id.value, ?_, ?_⟩
      · intro x hx y hy hlt
        rcases List.mem_cons.mp hx with rfl | hx' <;> rcases List.mem_cons.mp hy with rfl | hy'
        · exact absurd hlt (Int.lt_irrefl _)
        · rw [Function.update_self, hother hy']
          exact hfirst _ (List.mem_map_of_mem (f := Entry.rekey f) hy')
        · exact absurd hlt (Int.lt_asymm (hfirst' x hx'))
        · rw [hother hx', hother hy']
          exact hmono x hx' y hy' hlt
      · rw [List.map_cons]
        congr 1
        · have hplain := h.plain e List.mem_cons_self
          have hplain' := h'.plain e' List.mem_cons_self
          obtain ⟨d, id, at?⟩ := e
          obtain ⟨d', id', at?'⟩ := e'
          cases hdraft
          cases hplain
          cases hplain'
          rw [Entry.rekey, Function.update_self]
        · refine List.map_congr_left fun x hx => ?_
          rw [Entry.rekey, Entry.rekey, hother hx]

theorem filter_map_rekey (f : Int → Int) (id : AccountId) (es : List Entry) :
    ((es.map (Entry.rekey f)).filter fun e => e.account = id) =
      (es.filter fun e => e.account = id).map (Entry.rekey f) :=
  List.filter_map

/-! ## What is left of a failure -/

namespace Backend

variable {f : Faults} {b b' : Backend}

theorem Resembles.left (h : b.Resembles f none b') : b.Resembles f none b := by
  obtain ⟨hstore, hfaults, -, hplain⟩ := h
  refine ⟨?_, hfaults, hfaults, hplain⟩
  cases hstore with
  | quiet hs _ _ ascends _ => exact .quiet hs hs rfl ascends ascends

/-- A command that fails leaves a store that still resembles the store without it. -/
theorem Resembles.serve_left (h : b.Resembles f none b') (hready : b.store.Ready) {v : Visit}
    (hfail : ∀ answer, (b.serve v).1 ≠ some (.answered answer)) :
    (b.serve v).2.Resembles f none b' := by
  obtain ⟨hrows, hentries⟩ := serve_same hready hfail
  have hafter := (h.left.serve v).2
  refine ⟨?_, hafter.faults, h.faults', h.plain⟩
  have hbook : (b.serve v).2.store.book = b.store.book := by
    rw [Store.book, Store.book, hrows, hentries]
  cases hafter.store with
  | quiet hs _ _ ascends _ =>
    cases h.store with
    | quiet _ hs' book _ ascends' => exact .quiet hs hs' (hbook.trans book) ascends ascends'

theorem Resembles.undergo (h : b.Resembles f none b') (d : Deed) :
    (b.undergo d).1 = (b'.undergo d).1 ∧
      (b.undergo d).2.Resembles (d.arms f) none (b'.undergo d).2 := by
  cases d with
  | visit v => exact h.serve v
  | _ =>
    obtain ⟨hstore, rfl, hfaults, hplain⟩ := h
    simp only [Backend.undergo, hfaults, true_and]
    refine ⟨hstore, rfl, rfl, ?_⟩
    first | exact hplain | rfl

theorem ready_undergo (h : b.store.Ready) (d : Deed) : (b.undergo d).2.store.Ready := by
  cases d with
  | visit v =>
    obtain ⟨o, -, hready, -⟩ := serve_cases h v
    exact hready
  | _ => exact h

theorem Resembles.chronicle (h : b.Resembles f none b') (hready : b.store.Ready)
    {deeds : List Deed} {kept : List (Deed × Option Outcome)} (hkept : Omits (b.chronicle deeds).1 kept) :
    (b'.chronicle (kept.map Prod.fst)).1 = kept ∧
      (b.chronicle deeds).2.store.Ready ∧
      ∃ f', (b.chronicle deeds).2.Resembles f' none (b'.chronicle (kept.map Prod.fst)).2 := by
  induction deeds generalizing f b b' kept with
  | nil =>
    cases hkept
    exact ⟨rfl, hready, f, h⟩
  | cons d rest ih =>
    have hready' := ready_undergo hready d
    rw [Backend.chronicle] at hkept ⊢
    rcases hkept.of_cons with ⟨later, rfl, hlater⟩ | ⟨v, o, hfirst, failed, hlater⟩
    · obtain ⟨houtcome, hafter⟩ := h.undergo d
      obtain ⟨hrest, hend⟩ := ih hafter hready' hlater
      rw [List.map_cons, Backend.chronicle]
      refine ⟨?_, hend⟩
      simp only [hrest, houtcome]
    · obtain ⟨rfl, houtcome⟩ := Prod.mk.inj hfirst
      refine ih (h.serve_left hready fun answer hanswer => ?_) hready' hlater
      exact failed answer (Option.some.inj (houtcome.symm.trans hanswer))

end Backend

/-- Failures leave no trace: without some of the visits that failed, all others have the same outcomes,
and lead to the same rows and to the same streams, but for keys that come in the same order. -/
theorem Backend.failures_leave_no_trace {deeds : List Deed} {kept : List (Deed × Option Outcome)}
    (h : Omits (chronicle {} deeds).1 kept) :
    (chronicle {} (kept.map Prod.fst)).1 = kept ∧
      (chronicle {} (kept.map Prod.fst)).2.store.rows = (chronicle {} deeds).2.store.rows ∧
      ∃ f : Int → Int,
        Increases f (chronicle {} (kept.map Prod.fst)).2.store.entries ∧
        ∀ id, (chronicle {} deeds).2.store.entriesFor id =
          ((chronicle {} (kept.map Prod.fst)).2.store.entriesFor id).map (Entry.rekey f) := by
  have hempty : Backend.Resembles {} none {} {} :=
    ⟨.quiet ⟨rfl, rfl⟩ ⟨rfl, rfl⟩ rfl (.nil 0) (.nil 0), rfl, rfl, rfl⟩
  obtain ⟨hkept, hready, f', hafter⟩ := hempty.chronicle Store.ready_empty h
  refine ⟨hkept, ?_⟩
  cases hafter.store with
  | quiet _ _ book ascends ascends' =>
    refine ⟨(congrArg Book.rows book).symm, ?_⟩
    obtain ⟨f, hmono, hentries⟩ := ascends.exists_rekey ascends' (congrArg Book.drafts book)
    refine ⟨f, hmono, fun id => ?_⟩
    have hbook := hready.reached.kept
    rw [Store.entriesFor_eq_filter hbook, Store.entriesFor_eq_filter (book ▸ hbook), hentries,
      filter_map_rekey]

def Deed.retried : List Deed :=
  [.failOn .upsertAccount, .visit (.opens System.txA System.idA System.ten), .heal,
    .visit (.opens System.txA System.idA System.ten)]

namespace Backend

/-- The failed opening has used up the keys 1 and 2, and nothing else of it is left. -/
theorem retried_as_if_new :
    ∃ kept, Omits (chronicle {} Deed.retried).1 kept ∧
      kept.map Prod.snd =
        [none, none, some (.answered (.account (.opened System.idA System.ten Clock.still.next)))] ∧
      (chronicle {} Deed.retried).2.store.entries.map (·.id.value) = [3, 4] ∧
      (chronicle {} (kept.map Prod.fst)).2.store.entries.map (·.id.value) = [1, 2] ∧
      (chronicle {} (kept.map Prod.fst)).1 = kept ∧
      (chronicle {} (kept.map Prod.fst)).2.store.rows =
        (chronicle {} Deed.retried).2.store.rows ∧
      ∃ f : Int → Int,
        Increases f (chronicle {} (kept.map Prod.fst)).2.store.entries ∧
        ∀ id, (chronicle {} Deed.retried).2.store.entriesFor id =
          ((chronicle {} (kept.map Prod.fst)).2.store.entriesFor id).map (Entry.rekey f) := by
  let failure : Failure := .rejected (.internal .insertingAccount (.failure .upsertAccount .injected))
  let opened : Outcome := .answered (.account (.opened System.idA System.ten Clock.still.next))
  let opening : Deed := .visit (.opens System.txA System.idA System.ten)
  have houtcomes : (chronicle {} Deed.retried).1.map Prod.snd =
      [none, some (.failed failure), none, some opened] := by decide +kernel
  have hlog := List.zip_of_prod (map_fst_chronicle {} Deed.retried) houtcomes
  have homits : Omits (chronicle {} Deed.retried).1
      [(.failOn .upsertAccount, none), (.heal, none), (opening, some opened)] := by
    rw [hlog]
    exact .keep _ (.leave _ (by simp) (.keep _ (.keep _ .nil)))
  exact ⟨_, homits, rfl, by decide +kernel, by decide +kernel, failures_leave_no_trace homits⟩

end Backend

end Bookkeeping
