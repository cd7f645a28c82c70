import Bookkeeping.Proofs.Isolation
import Mathlib.Data.List.Find

/-! # Uses of a store

A wait for a lock can be given up at any moment, also after the lock was handed over and before the
wait has noticed it; the lock then goes on to the next unit of work. With this as one more thing that
can happen, units of work remain beside each other, the queues remain in order, and the locks of a unit
that ends go to those who wait longest for them.
-/
namespace Bookkeeping
namespace Store

variable {s s' : Store} {u v : UnitId} {id x : AccountId}

/-! ## A lock that is let go -/

/-- A unit of work without one of its locks, which is yet to be handed over. -/
def dropLock (s : Store) (u : UnitId) (id : AccountId) : Store :=
  s.setUnit u { s.unit u with held := (s.unit u).held.erase id }

def release (s : Store) (u : UnitId) (id : AccountId) : Store := (s.dropLock u id).handOver id

theorem held_dropLock (s : Store) (u : UnitId) (id : AccountId) (v : UnitId) :
    ((s.dropLock u id).unit v).held =
      if v = u then (s.unit v).held.erase id else (s.unit v).held := by
  rw [dropLock, unit_setUnit]
  by_cases hv : v = u
  · subst hv
    by_cases ho : s.IsOpen v
    · simp [ho]
    · simp [ho, unit_of_not_isOpen ho]
  · simp [hv]

theorem mem_held_of_dropLock (h : x ∈ ((s.dropLock u id).unit v).held) : x ∈ (s.unit v).held := by
  rw [held_dropLock] at h
  split at h
  · exact List.mem_of_mem_erase h
  · exact h

theorem written_dropLock (s : Store) (u : UnitId) (id : AccountId) (v : UnitId) :
    ((s.dropLock u id).unit v).rows = (s.unit v).rows ∧
      ((s.dropLock u id).unit v).entries = (s.unit v).entries :=
  ⟨unit_setUnit_congr WorkUnit.rows rfl, unit_setUnit_congr WorkUnit.entries rfl⟩

theorem Sound.dropLock (h : s.Sound) (u : UnitId) (id : AccountId) : (s.dropLock u id).Sound where
  names := by
    rw [Store.dropLock, map_fst_setUnit]
    exact h.names
  lt_opened v hv := h.lt_opened v (isOpen_setUnit.mp hv)
  nodup_held v := by
    rw [held_dropLock]
    split
    · exact (h.nodup_held v).erase id
    · exact h.nodup_held v
  exclusive v w x hv hw := h.exclusive v w x (mem_held_of_dropLock hv) (mem_held_of_dropLock hw)

theorem Sound.isFreeLock_dropLock (h : s.Sound) (hid : id ∈ (s.unit u).held) :
    (s.dropLock u id).IsFreeLock id := by
  intro v hv
  have hvu : v = u := h.exclusive v u id (mem_held_of_dropLock hv) hid
  rw [held_dropLock, if_pos hvu] at hv
  exact (h.nodup_held v).not_mem_erase hv

theorem Queued.dropLock (h : s.Queued []) (u : UnitId) (id : AccountId) :
    (s.dropLock u id).Queued [id] where
  nodup := h.nodup
  isOpen v x hx := isOpen_setUnit.mpr (h.isOpen v x hx)
  not_held v x hx := fun hheld => h.not_held v x hx (mem_held_of_dropLock hheld)
  locked v x hx := by
    by_cases hxid : x = id
    · exact .inl (List.mem_singleton.mpr hxid)
    · obtain ⟨w, hw⟩ := (h.locked v x hx).resolve_left List.not_mem_nil
      refine .inr ⟨w, ?_⟩
      rw [held_dropLock]
      split
      · exact (List.mem_erase_of_ne hxid).mpr hw
      · exact hw

theorem Sound.release (h : s.Sound) (hid : id ∈ (s.unit u).held) : (s.release u id).Sound :=
  (h.dropLock u id).handOver (h.isFreeLock_dropLock hid)

theorem Queued.release (h : s.Queued []) (u : UnitId) (id : AccountId) :
    (s.release u id).Queued [] :=
  (h.dropLock u id).handOver

@[simp] theorem rows_release (s : Store) (u : UnitId) (id : AccountId) :
    (s.release u id).rows = s.rows := rows_handOver _ id

@[simp] theorem entries_release (s : Store) (u : UnitId) (id : AccountId) :
    (s.release u id).entries = s.entries := entries_handOver _ id

@[simp] theorem opened_release (s : Store) (u : UnitId) (id : AccountId) :
    (s.release u id).opened = s.opened := opened_handOver _ id

theorem isOpen_release : (s.release u id).IsOpen v ↔ s.IsOpen v := by
  rw [release, IsOpen, map_fst_handOver]
  exact isOpen_setUnit

theorem written_release (s : Store) (u : UnitId) (id : AccountId) (v : UnitId) :
    ((s.release u id).unit v).rows = (s.unit v).rows ∧
      ((s.release u id).unit v).entries = (s.unit v).entries := by
  have hkeeps := Keeps.handOver (s.dropLock u id) id v
  obtain ⟨hrows, hentries⟩ := written_dropLock s u id v
  exact ⟨hkeeps.rows.trans hrows, hkeeps.entries.trans hentries⟩

theorem mem_held_release (h : x ∈ (s.unit v).held) (hne : v ≠ u ∨ x ≠ id) :
    x ∈ ((s.release u id).unit v).held := by
  refine (Keeps.handOver (s.dropLock u id) id v).held ?_
  rw [held_dropLock]
  split
  · rename_i hv
    exact (List.mem_erase_of_ne (hne.resolve_left (not_not.mpr hv))).mpr h
  · exact h

/-! ## The locks of a unit of work that ends -/

theorem mem_held_handOver_of_ne (hne : x ≠ id) :
    x ∈ ((s.handOver id).unit v).held ↔ x ∈ (s.unit v).held := by
  rw [unit_handOver]
  split
  · rw [List.mem_cons]
    exact or_iff_right hne
  · exact Iff.rfl

theorem mem_held_foldl_handOver_of_not_mem {ids : List AccountId} (hx : x ∉ ids) :
    x ∈ ((ids.foldl handOver s).unit v).held ↔ x ∈ (s.unit v).held := by
  induction ids generalizing s with
  | nil => exact Iff.rfl
  | cons id rest ih =>
    obtain ⟨hne, hrest⟩ := not_or.mp (mt List.mem_cons.mpr hx)
    rw [List.foldl_cons, ih hrest, mem_held_handOver_of_ne hne]

theorem find?_erase_of_not {α : Type} [BEq α] [LawfulBEq α] {p : α → Bool} {a : α} (h : p a = false)
    (l : List α) : (l.erase a).find? p = l.find? p := by
  induction l with
  | nil => rfl
  | cons b rest ih =>
    by_cases hb : b = a
    · subst hb
      rw [List.erase_cons_head, List.find?_cons_of_neg (by simp [h])]
    · rw [List.erase_cons_tail (by simpa using hb), List.find?_cons, List.find?_cons, ih]

theorem heir_handOver_of_ne (hne : x ≠ id) : (s.handOver id).heir x = s.heir x := by
  rw [heir, waiting_handOver]
  split
  · rfl
  · rename_i u _
    have hother : decide (id = x) = false := decide_eq_false (Ne.symm hne)
    exact congrArg _ (find?_erase_of_not (p := fun r => decide (r.2 = x)) (a := (u, id)) hother _)

/-- Locks that are handed over one after the other go to those who wait longest for them. -/
theorem mem_held_foldl_handOver {ids : List AccountId} (hs : s.Queued ids) (hids : ids.Nodup)
    (hfree : ∀ x ∈ ids, s.IsFreeLock x) (hx : x ∈ ids) :
    x ∈ ((ids.foldl handOver s).unit v).held ↔ s.heir x = some v := by
  induction ids generalizing s with
  | nil => cases hx
  | cons id rest ih =>
    obtain ⟨hid, hrest⟩ := List.nodup_cons.mp hids
    rcases List.mem_cons.mp hx with rfl | hx
    · -- no later handing over concerns this lock
      rw [List.foldl_cons, mem_held_foldl_handOver_of_not_mem hid, unit_handOver]
      constructor
      · intro h
        split at h
        · rename_i hheir
          exact hheir.1
        · exact absurd h (hfree x List.mem_cons_self v)
      · intro hheir
        rw [if_pos ⟨hheir, hs.isOpen v x (mem_waiting_of_heir hheir)⟩]
        exact List.mem_cons_self
    · have hne : x ≠ id := fun he => hid (he ▸ hx)
      rw [List.foldl_cons, ih hs.handOver hrest (fun y hy => ?_) hx, heir_handOver_of_ne hne]
      exact (hfree y (List.mem_cons_of_mem _ hy)).handOver fun he => hid (he ▸ hy)

theorem heir_without (h : ∀ x, (u, x) ∈ s.waiting → x ≠ id) : (s.without u).heir id = s.heir id := by
  rw [heir, without, List.find?_filter]
  congr 1
  refine List.find?_congr fun p hp => ?_
  by_cases hid : p.2 = id
  · have hne : p.1 ≠ u := by
      rintro rfl
      exact h p.2 hp hid
    simp [hid, hne]
  · simp [hid]

theorem mem_held_close (hs : s.Sound) (hq : s.Queued []) (hid : id ∈ (s.unit u).held) :
    id ∈ ((s.close u).unit v).held ↔ s.heir id = some v := by
  have hwaits : ∀ x, (u, x) ∈ s.waiting → x ≠ id := by
    rintro x hx rfl
    exact hq.not_held u x hx hid
  rw [close_eq, mem_held_foldl_handOver (hq.without u) (hs.nodup_held u)
    (fun x hx => isFreeLock_without hs hx) hid, heir_without hwaits]

theorem mem_held_release_iff (hs : s.Sound) (hq : s.Queued []) (hid : id ∈ (s.unit u).held) :
    id ∈ ((s.release u id).unit v).held ↔ s.heir id = some v := by
  have hfree : ∀ x ∈ [id], (s.dropLock u id).IsFreeLock x := by
    intro x hx
    rw [List.mem_singleton.mp hx]
    exact hs.isFreeLock_dropLock hid
  exact mem_held_foldl_handOver (hq.dropLock u id) (List.nodup_singleton id) hfree
    (List.mem_singleton_self id)

theorem Admits.of_isOpen {a : Access} (ha : a.unit? = some u) (ho : s.IsOpen u) : s.Admits a := by
  intro w hw
  cases ha.symm.trans hw
  exact ho

end Store

/-! ## Runs of uses -/

def Observation.lockedRead? (u : UnitId) (id : AccountId) :
    Observation → Option (Except StoreError Account)
  | .replied (.lockAccount v x) r => if v = u ∧ x = id then some r else none
  | _ => none

/-- What units of work may do. -/
inductive Use where
  | access (a : Access)
  /-- The wait for a lock is given up that was handed over already. -/
  | letGo (u : UnitId) (id : AccountId)

namespace Use

/-- A unit of work is committed, rolled back or dropped. -/
def Ends (u : UnitId) : Use → Prop
  | .access (.call (.commit v)) | .access (.call (.rollback v)) | .access (.drop v) => v = u
  | _ => False

end Use

namespace Usage

variable {x : Usage}

/-- What a unit of work read of a row when it first had the lock of it. -/
def version (x : Usage) (u : UnitId) (id : AccountId) : Option (Except StoreError Account) :=
  x.history.findSome? (·.lockedRead? u id)

/-- A unit of work came by a lock and has not noticed it. -/
def Unnoticed (x : Usage) (u : UnitId) (id : AccountId) : Prop :=
  id ∈ (x.store.unit u).held ∧ x.version u id = none

instance (x : Usage) (u : UnitId) (id : AccountId) : Decidable (x.Unnoticed u id) :=
  inferInstanceAs (Decidable (_ ∧ _ = none))

def use (x : Usage) : Use → Usage
  | .access a => x.step a
  | .letGo u id => if x.Unnoticed u id then { x with store := x.store.release u id } else x

/-- What a use can do: make an access, let go a lock that was not noticed, or nothing. -/
theorem use_cases (x : Usage) (e : Use) :
    (∃ a, e = .access a ∧ x.use e = x.step a) ∨
    (∃ u id, e = .letGo u id ∧ x.Unnoticed u id ∧
      x.use e = { x with store := x.store.release u id }) ∨
    x.use e = x := by
  cases e with
  | access a => exact .inl ⟨a, rfl, rfl⟩
  | letGo u id =>
    by_cases h : x.Unnoticed u id
    · exact .inr (.inl ⟨u, id, rfl, h, if_pos h⟩)
    · exact .inr (.inr (if_neg h))

def useAll (x : Usage) (uses : List Use) : Usage := uses.foldl use x

@[simp] theorem useAll_concat (x : Usage) (uses : List Use) (e : Use) :
    x.useAll (uses ++ [e]) = (x.useAll uses).use e := by
  simp [useAll]

theorem queued_step (hs : x.store.Sound) (hq : x.store.Queued []) (a : Access) :
    (x.step a).store.Queued [] := by
  unfold step
  split
  · rename_i hadmits
    cases a with
    | call c =>
      change (x.call c).store.Queued []
      unfold call
      split
      · rename_i hr
        exact (Store.Told.answered hr).queued hq
      · rename_i hw
        exact hq.waits hs hw hadmits
    | drop u => exact hq.close u
    | giveUp u =>
      exact {
        nodup := hq.nodup.filter _
        isOpen := fun v id hid => hq.isOpen v id (List.mem_filter.mp hid).1
        not_held := fun v id hid => hq.not_held v id (List.mem_filter.mp hid).1
        locked := fun v id hid => hq.locked v id (List.mem_filter.mp hid).1 }
  · exact hq

theorem sound_use (hs : x.store.Sound) (e : Use) : (x.use e).store.Sound := by
  rcases x.use_cases e with ⟨a, -, he⟩ | ⟨u, id, -, hlet, he⟩ | he <;> rw [he]
  · exact sound_step hs a
  · exact hs.release hlet.1
  · exact hs

theorem queued_use (hs : x.store.Sound) (hq : x.store.Queued []) (e : Use) :
    (x.use e).store.Queued [] := by
  rcases x.use_cases e with ⟨a, -, he⟩ | ⟨u, id, -, -, he⟩ | he <;> rw [he]
  · exact queued_step hs hq a
  · exact hq.release u id
  · exact hq

theorem queued_fresh (rows : List Account) (entries : List Entry) (lastKey : Nat) :
    (fresh rows entries lastKey).store.Queued [] :=
  Store.queued_empty.of_same rfl (fun _ => id) fun _ => rfl

theorem exists_close_of_ends {u : UnitId} {e : Use} (ho : x.store.IsOpen u) (h : e.Ends u) :
    ∃ s, x.store.Alike s ∧ (x.use e).store = s.close u := by
  have hsame : x.store.Alike x.store := .refl _
  rcases e with (c | v | v) | ⟨v, id⟩
  · cases c with
    | commit v =>
      cases h
      have hadmits : x.store.Admits (.call (.commit u)) := .of_isOpen rfl ho
      simp only [use, step, if_pos hadmits, call, Store.respond]
      rcases x.store.commit_cases u with ⟨-, he⟩ | he <;> rw [he]
      · exact ⟨x.store.merge (x.store.unit u), ⟨rfl, rfl, rfl⟩, rfl⟩
      · exact ⟨x.store, hsame, rfl⟩
    | rollback v =>
      cases h
      have hadmits : x.store.Admits (.call (.rollback u)) := .of_isOpen rfl ho
      simp only [use, step, if_pos hadmits, call, Store.respond]
      exact ⟨x.store, hsame, rfl⟩
    | _ => cases h
  · cases h
    have hadmits : x.store.Admits (.drop u) := .of_isOpen rfl ho
    simp only [use, step, if_pos hadmits]
    exact ⟨x.store, hsame, rfl⟩
  · cases h
  · cases h

/-- The locks of a unit of work that ends go to those who wait longest for them, and to nobody else. -/
theorem mem_held_of_ends {u v : UnitId} {id : AccountId} {e : Use} (hs : x.store.Sound)
    (hq : x.store.Queued []) (h : e.Ends u) (hid : id ∈ (x.store.unit u).held) :
    id ∈ ((x.use e).store.unit v).held ↔ x.store.heir id = some v := by
  obtain ⟨s, hsame, he⟩ := exists_close_of_ends (Store.isOpen_of_mem_held hid) h
  have hheir : s.heir id = x.store.heir id := by rw [Store.heir, Store.heir, hsame.waiting]
  rw [he, ← hheir]
  exact Store.mem_held_close (hsame.sound hs) (hq.alike hsame) (by rwa [hsame.unit_eq])

theorem not_isOpen_of_ends {u : UnitId} {e : Use} (ho : x.store.IsOpen u) (h : e.Ends u) :
    ¬(x.use e).store.IsOpen u := by
  obtain ⟨s, -, he⟩ := exists_close_of_ends ho h
  rw [he, Store.isOpen_close]
  exact fun h => h.1 rfl

end Usage

end Bookkeeping
