import Bookkeeping.Proofs.Standing

/-! # The queues before the locks

A unit of work stands in a queue only while it is open and some other unit holds the lock, and it
comes by a lock of its queue when it is first there at the end of the holder. Nothing else that other
units do gives it a lock or a place in a queue.
-/
namespace Bookkeeping
namespace Store

variable {s s' s'' : Store} {u v : UnitId} {x y : AccountId}

theorem isOpen_close : (s.close u).IsOpen v ↔ v ≠ u ∧ s.IsOpen v := by
  rw [IsOpen, close_eq, map_fst_foldl_handOver]
  exact isOpen_without

theorem locked_of_mem_held (h : x ∈ (s.unit u).held) : s.Locked x := by
  by_contra hx
  exact isFreeLock_of_not_locked hx u h

theorem Sound.exists_holder (h : s.Sound) (hx : s.Locked x) : ∃ v, x ∈ (s.unit v).held := by
  obtain ⟨⟨v, w⟩, hmem, hw⟩ := hx
  have hlookup : s.units.lookup v = some w := by
    obtain ⟨before, after, hunits⟩ := List.append_of_mem hmem
    have hnames := h.names
    rw [hunits, List.map_append, List.nodup_append] at hnames
    refine List.lookup_eq_some_iff.mpr ⟨before, after, hunits, fun p hp => ?_⟩
    have hne := hnames.2.2 p.1 (List.mem_map_of_mem hp) v (by simp)
    simpa using Ne.symm hne
  exact ⟨v, by rwa [unit, hlookup]⟩

/-! ## Queues in order -/

/-- Open units of work wait, each at one place, for locks that other units hold; the locks in `freed`
are yet to be handed over. -/
structure Queued (s : Store) (freed : List AccountId) : Prop where
  nodup : s.waiting.Nodup
  isOpen : ∀ u x, (u, x) ∈ s.waiting → s.IsOpen u
  not_held : ∀ u x, (u, x) ∈ s.waiting → x ∉ (s.unit u).held
  locked : ∀ u x, (u, x) ∈ s.waiting → x ∈ freed ∨ ∃ v, x ∈ (s.unit v).held

theorem queued_empty : Queued {} [] where
  nodup := List.nodup_nil
  isOpen := by simp
  not_held := by simp
  locked := by simp

namespace Queued

variable {freed : List AccountId}

theorem of_same (h : s.Queued freed) (hw : s'.waiting = s.waiting)
    (hopen : ∀ v, s.IsOpen v → s'.IsOpen v) (hheld : ∀ v, (s'.unit v).held = (s.unit v).held) :
    s'.Queued freed where
  nodup := hw ▸ h.nodup
  isOpen u x hx := hopen u (h.isOpen u x (hw ▸ hx))
  not_held u x hx := hheld u ▸ h.not_held u x (hw ▸ hx)
  locked u x hx := (h.locked u x (hw ▸ hx)).imp_right fun ⟨v, hv⟩ => ⟨v, (hheld v).symm ▸ hv⟩

theorem setUnit (h : s.Queued freed) {w : WorkUnit} (hw : w.held = (s.unit u).held) :
    (s.setUnit u w).Queued freed := by
  refine h.of_same rfl (fun v => isOpen_setUnit.mpr) fun v => ?_
  rw [unit_setUnit]
  split
  · rename_i hv
    rw [hw, hv.1]
  · rfl

theorem openUnit (h : s.Queued freed) : s.openUnit.2.Queued freed := by
  refine h.of_same rfl (fun v hv => ?_) fun v => by rw [unit_openUnit]
  exact (Keeps.openUnit hv).isOpen hv

theorem alike (h : s.Queued freed) (hs : s.Alike s') : s'.Queued freed :=
  h.of_same hs.waiting (fun _ => hs.isOpen_iff.mpr) fun v => by rw [hs.unit_eq]

theorem giveLock (h : s.Queued []) (hx : s.IsFreeLock x) : (s.giveLock u x).Queued [] where
  nodup := h.nodup
  isOpen v y hy := isOpen_setUnit.mpr (h.isOpen v y hy)
  not_held v y hy := by
    obtain ⟨w, hw⟩ := (h.locked v y hy).resolve_left List.not_mem_nil
    have hne : y ≠ x := by
      rintro rfl
      exact hx w hw
    rw [Store.giveLock, unit_setUnit]
    split
    · rename_i hv
      rw [List.mem_cons, not_or]
      exact ⟨hne, hv.1 ▸ h.not_held v y hy⟩
    · exact h.not_held v y hy
  locked v y hy := by
    obtain ⟨w, hw⟩ := (h.locked v y hy).resolve_left List.not_mem_nil
    exact .inr ⟨w, (Keeps.giveLock s u x w).held hw⟩

theorem enqueue (h : s.Queued freed) (hu : s.IsOpen u) (hheld : x ∉ (s.unit u).held)
    (hx : ∃ v, x ∈ (s.unit v).held) (hnot : (u, x) ∉ s.waiting) :
    Queued { s with waiting := s.waiting ++ [(u, x)] } freed where
  nodup := by
    refine List.nodup_append.mpr ⟨h.nodup, by simp, fun p hp q hq he => hnot ?_⟩
    rwa [← List.mem_singleton.mp hq, ← he]
  isOpen v y hy := by
    rcases List.mem_append.mp hy with hy | hy
    · exact h.isOpen v y hy
    · cases List.mem_singleton.mp hy
      exact hu
  not_held v y hy := by
    rcases List.mem_append.mp hy with hy | hy
    · exact h.not_held v y hy
    · cases List.mem_singleton.mp hy
      exact hheld
  locked v y hy := by
    rcases List.mem_append.mp hy with hy | hy
    · exact h.locked v y hy
    · cases List.mem_singleton.mp hy
      exact .inr hx

theorem without (h : s.Queued []) (u : UnitId) : (s.without u).Queued (s.unit u).held where
  nodup := h.nodup.filter _
  isOpen v x hx := by
    obtain ⟨hx, hv⟩ := List.mem_filter.mp hx
    exact isOpen_without.mpr ⟨by simpa using hv, h.isOpen v x hx⟩
  not_held v x hx := by
    obtain ⟨hx, hv⟩ := List.mem_filter.mp hx
    rw [unit_without_of_ne (by simpa using hv)]
    exact h.not_held v x hx
  locked v x hx := by
    -- what the ended unit held is what is yet to be handed over
    obtain ⟨w, hw⟩ := (h.locked v x (List.mem_filter.mp hx).1).resolve_left List.not_mem_nil
    by_cases hwu : w = u
    · exact .inl (hwu ▸ hw)
    · exact .inr ⟨w, by rwa [unit_without_of_ne hwu]⟩

end Queued

theorem waiting_handOver (s : Store) (id : AccountId) :
    (s.handOver id).waiting = match s.heir id with
      | none => s.waiting
      | some u => s.waiting.erase (u, id) := by
  rw [handOver_eq]
  cases s.heir id <;> rfl

theorem heir_eq_none_iff : s.heir x = none ↔ ∀ u, (u, x) ∉ s.waiting := by
  simp only [heir, Option.map_eq_none_iff, List.find?_eq_none, decide_eq_true_eq, Prod.forall]
  exact ⟨fun h u hu => h u x hu rfl, fun h u y hy he => h u (he ▸ hy)⟩

theorem mem_waiting_of_heir (h : s.heir x = some u) : (u, x) ∈ s.waiting := by
  obtain ⟨⟨v, y⟩, hfind, rfl⟩ := Option.map_eq_some_iff.mp h
  have hy := List.find?_some hfind
  rw [decide_eq_true_eq] at hy
  exact hy ▸ List.mem_of_find?_eq_some hfind

/-- The heir holds the lock afterwards and has left its queue; the others wait for the heir. -/
theorem Queued.handOver {freed : List AccountId} (h : s.Queued (x :: freed)) :
    (s.handOver x).Queued freed := by
  cases hheir : s.heir x with
  | none =>
    rw [handOver_eq, hheir]
    refine ⟨h.nodup, h.isOpen, h.not_held, fun v y hy => ?_⟩
    refine (h.locked v y hy).imp_left fun hmem => ?_
    rcases List.mem_cons.mp hmem with rfl | hmem
    · exact absurd hy (heir_eq_none_iff.mp hheir v)
    · exact hmem
  | some u =>
    have hu := h.isOpen u x (mem_waiting_of_heir hheir)
    have hwaiting : (s.handOver x).waiting = s.waiting.erase (u, x) := by
      rw [waiting_handOver, hheir]
    have hmem {v : UnitId} {y : AccountId} (hy : (v, y) ∈ (s.handOver x).waiting) :
        (v, y) ≠ (u, x) ∧ (v, y) ∈ s.waiting := by
      rw [hwaiting] at hy
      exact h.nodup.mem_erase_iff.mp hy
    have hself : x ∈ ((s.handOver x).unit u).held := by
      rw [unit_handOver, if_pos ⟨hheir, hu⟩]
      exact List.mem_cons_self
    refine ⟨?_, fun v y hy => ?_, fun v y hy => ?_, fun v y hy => ?_⟩
    · rw [hwaiting]
      exact h.nodup.erase _
    · exact (Keeps.handOver s x v).isOpen (h.isOpen v y (hmem hy).2)
    · obtain ⟨hne, hy⟩ := hmem hy
      rw [unit_handOver]
      split
      · rename_i hv
        rw [List.mem_cons, not_or]
        refine ⟨?_, h.not_held v y hy⟩
        rintro rfl
        exact hne (congrArg (·, y) (Option.some.inj (hv.1.symm.trans hheir)))
      · exact h.not_held v y hy
    · rcases h.locked v y (hmem hy).2 with hfreed | ⟨w, hw⟩
      · rcases List.mem_cons.mp hfreed with rfl | hfreed
        · exact .inr ⟨u, hself⟩
        · exact .inl hfreed
      · exact .inr ⟨w, (Keeps.handOver s x w).held hw⟩

theorem Queued.foldl_handOver (ids : List AccountId) (h : s.Queued ids) :
    (ids.foldl Store.handOver s).Queued [] := by
  induction ids generalizing s with
  | nil => exact h
  | cons x rest ih => exact ih h.handOver

theorem Queued.close (h : s.Queued []) (u : UnitId) : (s.close u).Queued [] := by
  rw [close_eq]
  exact (h.without u).foldl_handOver _

/-! ## What becomes of a unit of work -/

/-- A unit of work takes no new place in a queue, and comes by a lock only from its place. -/
structure Serves (s s' : Store) (v : UnitId) : Prop where
  waiting : ∀ x, (v, x) ∈ s'.waiting → (v, x) ∈ s.waiting
  held : ∀ x ∈ (s'.unit v).held, x ∈ (s.unit v).held ∨ (v, x) ∈ s.waiting

namespace Serves

theorem of_same (hw : s'.waiting = s.waiting) (hheld : (s'.unit v).held = (s.unit v).held) :
    s.Serves s' v :=
  ⟨fun _ hx => hw ▸ hx, fun _ hx => .inl (hheld ▸ hx)⟩

theorem refl (s : Store) (v : UnitId) : s.Serves s v := of_same rfl rfl

theorem trans (h : s.Serves s' v) (h' : s'.Serves s'' v) : s.Serves s'' v where
  waiting x hx := h.waiting x (h'.waiting x hx)
  held x hx := by
    rcases h'.held x hx with hx | hx
    · exact h.held x hx
    · exact .inr (h.waiting x hx)

theorem alike (h : s.Alike s') (v : UnitId) : s.Serves s' v :=
  of_same h.waiting (by rw [h.unit_eq])

theorem setUnit {w : WorkUnit} (hw : w.held = (s.unit u).held) : s.Serves (s.setUnit u w) v := by
  refine of_same rfl ?_
  rw [unit_setUnit]
  split
  · rename_i hv
    rw [hw, hv.1]
  · rfl

theorem handOver (s : Store) (x : AccountId) (v : UnitId) : s.Serves (s.handOver x) v where
  waiting y hy := by
    rw [waiting_handOver] at hy
    split at hy
    · exact hy
    · exact List.mem_of_mem_erase hy
  held y hy := by
    rw [unit_handOver] at hy
    split at hy
    · rename_i hv
      rcases List.mem_cons.mp hy with rfl | hy
      · exact .inr (mem_waiting_of_heir hv.1)
      · exact .inl hy
    · exact .inl hy

theorem foldl_handOver (ids : List AccountId) (s : Store) (v : UnitId) :
    s.Serves (ids.foldl Store.handOver s) v := by
  induction ids generalizing s with
  | nil => exact refl s v
  | cons x rest ih => exact (handOver s x v).trans (ih _)

theorem close (s : Store) (u v : UnitId) : s.Serves (s.close u) v := by
  have hwithout : s.Serves (s.without u) v := by
    refine ⟨fun _ hx => (List.mem_filter.mp hx).1, fun _ hx => .inl ?_⟩
    have hv := (isOpen_without.mp (isOpen_of_mem_held hx)).1
    rwa [unit_without_of_ne hv] at hx
  rw [close_eq]
  exact hwithout.trans (foldl_handOver _ _ v)

end Serves

/-! ## Queues under calls -/

variable {c : Call} {r : c.Reply}

theorem Told.queued (h : s.Told c r s') (hq : s.Queued []) : s'.Queued [] := by
  cases h.alters with
  | nothing same => exact hq.alike same
  | opens => exact hq.openUnit
  | locks free => exact hq.giveLock free
  | writes same _ held => exact (hq.alike same).setUnit (by rw [held, same.unit_eq])
  | closes same _ => exact (hq.alike same).close _

theorem Told.serves (h : s.Told c r s') (v : UnitId) :
    s.Serves s' v ∨ ∃ x, c = .lockAccount v x ∧ s' = s.giveLock v x := by
  cases h.alters with
  | nothing same => exact .inl (.alike same v)
  | opens => exact .inl (.of_same rfl (by rw [unit_openUnit]))
  | @locks u x _ free =>
    by_cases hv : v = u
    · exact .inr ⟨x, by rw [hv], by rw [hv]⟩
    · exact .inl (.of_same rfl (by rw [Store.giveLock, unit_setUnit_of_ne hv]))
  | writes same _ held =>
    exact .inl ((Serves.alike same v).trans (.setUnit (by rw [held, same.unit_eq])))
  | closes same _ => exact .inl ((Serves.alike same v).trans (.close _ _ v))

theorem Told.isOpen (h : s.Told c r s') (hv : s'.IsOpen v) (w : Option UnitId) :
    s.IsOpen v ∨ unitAfter w c r = some v := by
  cases h.alters with
  | nothing same => exact .inl (same.isOpen_iff.mp hv)
  | opens =>
    simp only [IsOpen, Store.openUnit, List.map_append, List.mem_append, List.map_cons,
      List.map_nil, List.mem_singleton] at hv
    exact hv.imp_right fun he => congrArg some he.symm
  | locks free => exact .inl (isOpen_setUnit.mp hv)
  | writes same _ _ => exact .inl (same.isOpen_iff.mp (isOpen_setUnit.mp hv))
  | closes same _ => exact .inl (same.isOpen_iff.mp (isOpen_close.mp hv).2)

theorem Queued.not_mem_of_respond (hq : s.Queued []) {r : (Call.lockAccount u x).Reply}
    (h : s.respond (.lockAccount u x) = .replied r s') : (u, x) ∉ s.waiting := by
  intro hmem
  rcases (lock_replied h).2 with ⟨hheld, -⟩ | ⟨hfree, -⟩
  · exact hq.not_held u x hmem hheld
  · obtain ⟨v, hv⟩ := (hq.locked u x hmem).resolve_left List.not_mem_nil
    exact hfree v hv

theorem Queued.waits (hq : s.Queued []) (hs : s.Sound) (h : s.respond c = .waits s')
    (hu : ∀ u, c.unit? = some u → s.IsOpen u) : s'.Queued [] := by
  obtain ⟨u, x, rfl, hheld, hlocked, rfl⟩ := respond_waits h
  split
  · exact hq
  · exact hq.enqueue (hu u rfl) hheld (hs.exists_holder hlocked) ‹_›

/-- A call that has to wait opens and locks nothing; it may take a place in the queue of its lock. -/
theorem waits_cases (h : s.respond c = .waits s') :
    s'.units = s.units ∧ ∀ v y, (v, y) ∈ s'.waiting → (v, y) ∈ s.waiting ∨ c = .lockAccount v y := by
  obtain ⟨u, x, rfl, -, -, rfl⟩ := respond_waits h
  split
  · exact ⟨rfl, fun v y => .inl⟩
  · refine ⟨rfl, fun v y hy => (List.mem_append.mp hy).imp_right fun hy => ?_⟩
    cases List.mem_singleton.mp hy
    rfl

/-! ## Queues when a unit of work is dropped -/

variable {b : Backend} {w : Option UnitId}

theorem Queued.dropUnit (h : b.store.Queued []) : (b.dropUnit w).store.Queued [] := by
  cases w with
  | none => exact h
  | some u => exact h.close u

theorem Serves.dropUnit (b : Backend) (w : Option UnitId) (v : UnitId) :
    b.store.Serves (b.dropUnit w).store v := by
  cases w with
  | none => exact .refl _ v
  | some u => exact .close _ u v

theorem isOpen_dropUnit : (b.dropUnit w).store.IsOpen v ↔ w ≠ some v ∧ b.store.IsOpen v := by
  cases w with
  | none => simp [Backend.dropUnit]
  | some u =>
    rw [ne_eq, Option.some.injEq, eq_comm]
    exact isOpen_close

/-! ## Queues when a call is held up -/

/-- A call that is held up stays entered once it is, and takes no place but in the queue of its lock. -/
theorem Queued.suspended {b b' : Backend} {phase phase' : Backend.Phase} {now : Time.Duration}
    (hq : b.store.Queued []) (hs : b.store.Sound) (h : b.attempt now c phase = .suspended phase' b')
    (hu : ∀ u, c.unit? = some u → b.store.IsOpen u) :
    b'.store.Queued [] ∧ b'.store.units = b.store.units ∧ (phase = .entered → phase' = .entered) ∧
      ∀ v y, (v, y) ∈ b'.store.waiting →
        (v, y) ∈ b.store.waiting ∨ phase' = .entered ∧ c = .lockAccount v y := by
  rcases Backend.attempt_suspended_cases h with ⟨hphase, -, hb⟩ | ⟨rfl, hwaits⟩
  · rw [hb]
    exact ⟨hq, rfl, fun he => absurd he hphase, fun v y => .inl⟩
  · obtain ⟨hunits, hwaiting⟩ := waits_cases hwaits
    exact ⟨hq.waits hs hwaits hu, hunits, fun _ => rfl,
      fun v y hy => (hwaiting v y hy).imp_right fun hc => ⟨rfl, hc⟩⟩

end Store
end Bookkeeping
