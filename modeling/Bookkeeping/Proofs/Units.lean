import Bookkeeping.Store
import Mathlib.Data.List.Basic

/-! # Units of work beside each other

Open units have names of their own, and no two of them hold one lock. What one unit of work does
leaves the others with what they have written and locked; a lock can only come to them.
-/
namespace Bookkeeping.Store

variable {s : Store}

def IsOpen (s : Store) (u : UnitId) : Prop := u ∈ s.units.map Prod.fst

instance (s : Store) (u : UnitId) : Decidable (s.IsOpen u) := inferInstanceAs (Decidable (_ ∈ _))

/-! ## The state of a unit of work -/

theorem lookup_map_replace (u v : UnitId) (w : WorkUnit) (units : List (UnitId × WorkUnit)) :
    (units.map fun p => if p.1 = u then (p.1, w) else p).lookup v =
      if v = u ∧ v ∈ units.map Prod.fst then some w else units.lookup v := by
  induction units with
  | nil => simp
  | cons p rest ih =>
    obtain ⟨name, x⟩ := p
    by_cases hv : v = name
    · subst hv
      by_cases hu : v = u <;> simp [hu]
    · have hne : (v == name) = false := by simpa using hv
      by_cases hu : name = u
      · subst hu
        simp [List.lookup_cons, hne, hv, ih]
      · simp only [List.map_cons, if_neg hu, List.lookup_cons, hne, ih, List.mem_cons, hv, false_or]

theorem lookup_eq_none_of_not_mem {u : UnitId} {units : List (UnitId × WorkUnit)}
    (h : u ∉ units.map Prod.fst) : units.lookup u = none := by
  rw [List.lookup_eq_none_iff]
  intro p hp
  simp only [bne_iff_ne]
  rintro rfl
  exact h (List.mem_map_of_mem hp)

theorem unit_of_not_isOpen {u : UnitId} (h : ¬s.IsOpen u) : s.unit u = {} := by
  simp [unit, lookup_eq_none_of_not_mem h]

theorem isOpen_of_mem_held {u : UnitId} {id : AccountId} (h : id ∈ (s.unit u).held) : s.IsOpen u := by
  by_contra hu
  simp [unit_of_not_isOpen hu] at h

theorem unit_setUnit (s : Store) (u v : UnitId) (w : WorkUnit) :
    (s.setUnit u w).unit v = if v = u ∧ s.IsOpen v then w else s.unit v := by
  have h := lookup_map_replace u v w s.units
  unfold unit setUnit IsOpen
  refine (congrArg (Option.getD · {}) h).trans ?_
  split <;> simp

theorem unit_setUnit_self {u : UnitId} (h : s.IsOpen u) (w : WorkUnit) :
    (s.setUnit u w).unit u = w := by
  simp [unit_setUnit, h]

/-- What a change leaves alone of its own unit of work, it leaves alone of all. -/
theorem unit_setUnit_congr {α : Type} (f : WorkUnit → α) {u v : UnitId} {w : WorkUnit}
    (h : f w = f (s.unit u)) : f ((s.setUnit u w).unit v) = f (s.unit v) := by
  rw [unit_setUnit]
  split
  · rename_i hv
    rw [hv.1, h]
  · rfl

theorem unit_setUnit_of_ne {u v : UnitId} (h : v ≠ u) (w : WorkUnit) :
    (s.setUnit u w).unit v = s.unit v := by
  simp [unit_setUnit, h]

theorem map_fst_setUnit (s : Store) (u : UnitId) (w : WorkUnit) :
    (s.setUnit u w).units.map Prod.fst = s.units.map Prod.fst := by
  simp only [setUnit, List.map_map]
  congr 1
  funext p
  by_cases h : p.1 = u <;> simp [h]

@[simp] theorem isOpen_setUnit {u v : UnitId} {w : WorkUnit} :
    (s.setUnit u w).IsOpen v ↔ s.IsOpen v := by
  rw [IsOpen, map_fst_setUnit, IsOpen]

/-! ## What is committed does not depend on the open units -/

@[simp] theorem rows_setUnit (s : Store) (u : UnitId) (w : WorkUnit) :
    (s.setUnit u w).rows = s.rows := rfl

@[simp] theorem entries_setUnit (s : Store) (u : UnitId) (w : WorkUnit) :
    (s.setUnit u w).entries = s.entries := rfl

@[simp] theorem opened_setUnit (s : Store) (u : UnitId) (w : WorkUnit) :
    (s.setUnit u w).opened = s.opened := rfl

@[simp] theorem rows_giveLock (s : Store) (u : UnitId) (id : AccountId) :
    (s.giveLock u id).rows = s.rows := rfl

@[simp] theorem entries_giveLock (s : Store) (u : UnitId) (id : AccountId) :
    (s.giveLock u id).entries = s.entries := rfl

@[simp] theorem opened_giveLock (s : Store) (u : UnitId) (id : AccountId) :
    (s.giveLock u id).opened = s.opened := rfl

/-- The unit of work to which a lock goes when it becomes free. -/
def heir (s : Store) (id : AccountId) : Option UnitId := (s.waiting.find? (·.2 = id)).map (·.1)

theorem handOver_eq (s : Store) (id : AccountId) :
    s.handOver id = match s.heir id with
      | none => s
      | some u => { s with waiting := s.waiting.erase (u, id) }.giveLock u id := by
  unfold handOver heir
  cases s.waiting.find? (·.2 = id) <;> rfl

@[simp] theorem rows_handOver (s : Store) (id : AccountId) : (s.handOver id).rows = s.rows := by
  rw [handOver_eq]; split <;> rfl

@[simp] theorem entries_handOver (s : Store) (id : AccountId) :
    (s.handOver id).entries = s.entries := by
  rw [handOver_eq]; split <;> rfl

@[simp] theorem opened_handOver (s : Store) (id : AccountId) :
    (s.handOver id).opened = s.opened := by
  rw [handOver_eq]; split <;> rfl

theorem map_fst_handOver (s : Store) (id : AccountId) :
    (s.handOver id).units.map Prod.fst = s.units.map Prod.fst := by
  rw [handOver_eq]
  split
  · rfl
  · rw [giveLock, map_fst_setUnit]

theorem unit_handOver (s : Store) (id : AccountId) (v : UnitId) :
    (s.handOver id).unit v =
      if s.heir id = some v ∧ s.IsOpen v then
        { s.unit v with held := id :: (s.unit v).held } else s.unit v := by
  rw [handOver_eq]
  cases h : s.heir id with
  | none => simp
  | some u =>
    change ((s.setUnit u { s.unit u with held := id :: (s.unit u).held }).unit v) = _
    rw [unit_setUnit]
    by_cases hv : v = u
    · subst hv
      simp
    · have hu : ¬u = v := Ne.symm hv
      simp [hv, hu]

/-- The store without a unit of work; its locks are not handed over yet. -/
def without (s : Store) (u : UnitId) : Store :=
  { s with units := s.units.filter (·.1 ≠ u), waiting := s.waiting.filter (·.1 ≠ u) }

theorem close_eq (s : Store) (u : UnitId) :
    s.close u = (s.unit u).held.foldl handOver (s.without u) := rfl

theorem lookup_filter_ne {u v : UnitId} (h : v ≠ u) (units : List (UnitId × WorkUnit)) :
    (units.filter (·.1 ≠ u)).lookup v = units.lookup v := by
  induction units with
  | nil => rfl
  | cons p rest ih =>
    obtain ⟨name, x⟩ := p
    by_cases hu : name = u
    · subst hu
      have hv : (v == name) = false := by simpa using h
      simpa [List.lookup_cons, hv] using ih
    · rw [List.filter_cons_of_pos (by simpa using hu), List.lookup_cons, List.lookup_cons, ih]

theorem unit_without_of_ne {u v : UnitId} (h : v ≠ u) : (s.without u).unit v = s.unit v := by
  simp only [unit, without, lookup_filter_ne h]

theorem map_fst_without (s : Store) (u : UnitId) :
    (s.without u).units.map Prod.fst = (s.units.map Prod.fst).filter (· ≠ u) := by
  simp only [without, List.filter_map]
  rfl

theorem isOpen_without {u v : UnitId} : (s.without u).IsOpen v ↔ v ≠ u ∧ s.IsOpen v := by
  simp only [IsOpen, map_fst_without, List.mem_filter, decide_eq_true_eq, and_comm]

section Fold
variable (ids : List AccountId)

@[simp] theorem rows_foldl_handOver (s : Store) : (ids.foldl handOver s).rows = s.rows := by
  induction ids generalizing s with
  | nil => rfl
  | cons id rest ih => rw [List.foldl_cons, ih, rows_handOver]

@[simp] theorem entries_foldl_handOver (s : Store) : (ids.foldl handOver s).entries = s.entries := by
  induction ids generalizing s with
  | nil => rfl
  | cons id rest ih => rw [List.foldl_cons, ih, entries_handOver]

@[simp] theorem opened_foldl_handOver (s : Store) : (ids.foldl handOver s).opened = s.opened := by
  induction ids generalizing s with
  | nil => rfl
  | cons id rest ih => rw [List.foldl_cons, ih, opened_handOver]

theorem map_fst_foldl_handOver (s : Store) :
    (ids.foldl handOver s).units.map Prod.fst = s.units.map Prod.fst := by
  induction ids generalizing s with
  | nil => rfl
  | cons id rest ih => rw [List.foldl_cons, ih, map_fst_handOver]

end Fold

@[simp] theorem rows_close (s : Store) (u : UnitId) : (s.close u).rows = s.rows := by
  rw [close_eq, rows_foldl_handOver]; rfl

@[simp] theorem entries_close (s : Store) (u : UnitId) : (s.close u).entries = s.entries := by
  rw [close_eq, entries_foldl_handOver]; rfl

@[simp] theorem opened_close (s : Store) (u : UnitId) : (s.close u).opened = s.opened := by
  rw [close_eq, opened_foldl_handOver]; rfl

theorem unit_openUnit (s : Store) (v : UnitId) : s.openUnit.2.unit v = s.unit v := by
  simp only [unit, openUnit, List.lookup_append]
  cases s.units.lookup v with
  | none =>
    rw [Option.none_or, List.lookup_cons]
    split <;> rfl
  | some w => rfl

/-! ## Locks are held by one unit of work at a time -/

/-- Open units of work have different names, given out in order, and different locks. -/
structure Sound (s : Store) : Prop where
  names : (s.units.map Prod.fst).Nodup
  lt_opened : ∀ u, s.IsOpen u → u.value < s.opened
  nodup_held : ∀ u, (s.unit u).held.Nodup
  exclusive : ∀ u v id, id ∈ (s.unit u).held → id ∈ (s.unit v).held → u = v

theorem sound_empty : Sound {} where
  names := by simp
  lt_opened := by simp [IsOpen]
  nodup_held := by simp [unit]
  exclusive := by simp [unit]

def IsFreeLock (s : Store) (id : AccountId) : Prop := ∀ u, id ∉ (s.unit u).held

theorem isFreeLock_of_not_locked {id : AccountId} (h : ¬s.Locked id) : s.IsFreeLock id := by
  intro u hu
  apply h
  unfold unit at hu
  cases hl : s.units.lookup u with
  | none => simp [hl] at hu
  | some w =>
    obtain ⟨before, after, he, -⟩ := List.lookup_eq_some_iff.mp hl
    rw [hl] at hu
    exact ⟨(u, w), by simp [he], hu⟩

theorem Sound.of_held {s' : Store} (h : s.Sound)
    (hnames : s'.units.map Prod.fst = s.units.map Prod.fst) (hopened : s'.opened = s.opened)
    {id : AccountId} (hid : s.IsFreeLock id) (heir : Option UnitId)
    (hheld : ∀ v, (s'.unit v).held =
      if heir = some v ∧ s.IsOpen v then id :: (s.unit v).held else (s.unit v).held) : s'.Sound where
  names := hnames ▸ h.names
  lt_opened u hu := by
    rw [hopened]
    exact h.lt_opened u (by rwa [IsOpen, hnames] at hu)
  nodup_held u := by
    rw [hheld]
    split
    · exact List.nodup_cons.mpr ⟨hid u, h.nodup_held u⟩
    · exact h.nodup_held u
  exclusive u v x hu hv := by
    rw [hheld] at hu hv
    split at hu <;> split at hv
    · rename_i hu' hv'
      exact Option.some.inj (hu'.1.symm.trans hv'.1)
    · rcases List.mem_cons.mp hu with rfl | hu
      · exact absurd hv (hid v)
      · exact h.exclusive u v x hu hv
    · rcases List.mem_cons.mp hv with rfl | hv
      · exact absurd hu (hid u)
      · exact h.exclusive u v x hu hv
    · exact h.exclusive u v x hu hv

theorem Sound.of_same {s' : Store} (h : s.Sound)
    (hnames : s'.units.map Prod.fst = s.units.map Prod.fst) (hopened : s'.opened = s.opened)
    (hheld : ∀ v, (s'.unit v).held = (s.unit v).held) : s'.Sound where
  names := hnames ▸ h.names
  lt_opened u hu := by
    rw [hopened]
    exact h.lt_opened u (by rwa [IsOpen, hnames] at hu)
  nodup_held u := hheld u ▸ h.nodup_held u
  exclusive u v x hu hv := h.exclusive u v x (hheld u ▸ hu) (hheld v ▸ hv)

theorem Sound.handOver (h : s.Sound) {id : AccountId} (hid : s.IsFreeLock id) :
    (s.handOver id).Sound := by
  apply h.of_held (map_fst_handOver s id) (opened_handOver s id) hid (s.heir id)
  intro v
  rw [unit_handOver]
  split <;> rfl

theorem IsFreeLock.handOver {id other : AccountId} (h : s.IsFreeLock other) (hne : other ≠ id) :
    (s.handOver id).IsFreeLock other := by
  intro v hv
  rw [unit_handOver] at hv
  split at hv
  · rcases List.mem_cons.mp hv with he | hv
    · exact hne he
    · exact h v hv
  · exact h v hv

theorem Sound.foldl_handOver {ids : List AccountId} (h : s.Sound) (hids : ids.Nodup)
    (hfree : ∀ id ∈ ids, s.IsFreeLock id) : (ids.foldl Store.handOver s).Sound := by
  induction ids generalizing s with
  | nil => exact h
  | cons id rest ih =>
    obtain ⟨hid, hrest⟩ := List.nodup_cons.mp hids
    apply ih (h.handOver (hfree id List.mem_cons_self)) hrest
    intro other ho
    exact (hfree other (List.mem_cons_of_mem _ ho)).handOver fun he => hid (he ▸ ho)

theorem Sound.without (h : s.Sound) (u : UnitId) : (s.without u).Sound where
  names := by
    rw [map_fst_without]
    exact h.names.filter _
  lt_opened v hv := h.lt_opened v (isOpen_without.mp hv).2
  nodup_held v := by
    by_cases hv : v = u
    · subst hv
      have hc : ¬(s.without v).IsOpen v := fun hv => (isOpen_without.mp hv).1 rfl
      simp [unit_of_not_isOpen hc]
    · rw [unit_without_of_ne hv]
      exact h.nodup_held v
  exclusive v w id hv hw := by
    have hvu := (isOpen_without.mp (isOpen_of_mem_held hv)).1
    have hwu := (isOpen_without.mp (isOpen_of_mem_held hw)).1
    rw [unit_without_of_ne hvu] at hv
    rw [unit_without_of_ne hwu] at hw
    exact h.exclusive v w id hv hw

theorem isFreeLock_without (h : s.Sound) {u : UnitId} {id : AccountId}
    (hid : id ∈ (s.unit u).held) : (s.without u).IsFreeLock id := by
  intro v hv
  have hvu := (isOpen_without.mp (isOpen_of_mem_held hv)).1
  rw [unit_without_of_ne hvu] at hv
  exact hvu (h.exclusive v u id hv hid)

theorem Sound.close (h : s.Sound) (u : UnitId) : (s.close u).Sound := by
  rw [close_eq]
  exact (h.without u).foldl_handOver (h.nodup_held u) fun id hid => isFreeLock_without h hid

/-! ## What a unit of work keeps while others go on -/

/-- A unit of work is still open, with what it has written, and holds at least the same locks. -/
structure Keeps (s s' : Store) (v : UnitId) : Prop where
  isOpen : s.IsOpen v → s'.IsOpen v
  rows : (s'.unit v).rows = (s.unit v).rows
  entries : (s'.unit v).entries = (s.unit v).entries
  held : (s.unit v).held ⊆ (s'.unit v).held

namespace Keeps

variable {s' s'' : Store} {v : UnitId}

theorem refl (s : Store) (v : UnitId) : s.Keeps s v := ⟨id, rfl, rfl, List.Subset.refl _⟩

theorem trans (h : s.Keeps s' v) (h' : s'.Keeps s'' v) : s.Keeps s'' v :=
  ⟨h'.isOpen ∘ h.isOpen, h'.rows.trans h.rows, h'.entries.trans h.entries,
    List.Subset.trans h.held h'.held⟩

theorem of_unit_eq (hopen : s.IsOpen v → s'.IsOpen v) (h : s'.unit v = s.unit v) : s.Keeps s' v :=
  ⟨hopen, by rw [h], by rw [h], by rw [h]; exact List.Subset.refl _⟩

theorem setUnit {u : UnitId} (h : v ≠ u) (w : WorkUnit) : s.Keeps (s.setUnit u w) v :=
  of_unit_eq isOpen_setUnit.mpr (unit_setUnit_of_ne h w)

theorem handOver (s : Store) (id : AccountId) (v : UnitId) : s.Keeps (s.handOver id) v where
  isOpen h := by rwa [IsOpen, map_fst_handOver]
  rows := by rw [unit_handOver]; split <;> rfl
  entries := by rw [unit_handOver]; split <;> rfl
  held := by
    rw [unit_handOver]
    split
    · exact List.subset_cons_self _ _
    · exact List.Subset.refl _

theorem foldl_handOver (ids : List AccountId) (s : Store) (v : UnitId) :
    s.Keeps (ids.foldl Store.handOver s) v := by
  induction ids generalizing s with
  | nil => exact refl s v
  | cons id rest ih => exact (handOver s id v).trans (ih _)

theorem close {u : UnitId} (h : v ≠ u) : s.Keeps (s.close u) v := by
  have hw : s.Keeps (s.without u) v :=
    of_unit_eq (fun ho => isOpen_without.mpr ⟨h, ho⟩) (unit_without_of_ne h)
  exact hw.trans (foldl_handOver _ _ v)

theorem openUnit (h : s.IsOpen v) : s.Keeps s.openUnit.2 v := by
  refine of_unit_eq (fun _ => ?_) (unit_openUnit s v)
  simp only [IsOpen, Store.openUnit, List.map_append]
  exact List.mem_append_left _ h

end Keeps

end Bookkeeping.Store
