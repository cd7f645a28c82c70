import Bookkeeping.Proofs.StoreUse
import Mathlib.Data.List.Nodup
import Mathlib.Data.List.Perm.Subperm

/-! # The log is only appended to

No two committed entries share an account and a number. No two entries at all, be they committed or
still with an open unit of work, share a key; keys are given out in order and never twice. What is once
committed stays where it is in its stream.
-/
namespace Bookkeeping
namespace Store

variable {s s' s'' : Store} {u v : UnitId}

def staged (s : Store) : List Entry := s.units.flatMap (·.2.entries)

def written (s : Store) : List Entry := s.entries ++ s.staged

/-! ## What the units of work have staged -/

theorem flatMap_entries_perm {units : List (UnitId × WorkUnit)} (h : (units.map Prod.fst).Nodup)
    (u : UnitId) :
    (units.flatMap (·.2.entries)).Perm
      (((units.lookup u).getD {}).entries ++ (units.filter (·.1 ≠ u)).flatMap (·.2.entries)) := by
  induction units with
  | nil => exact .refl _
  | cons p rest ih =>
    obtain ⟨name, w⟩ := p
    obtain ⟨hname, hrest⟩ := List.nodup_cons.mp h
    by_cases hu : name = u
    · subst hu
      have hkept : rest.filter (·.1 ≠ name) = rest := by
        rw [List.filter_eq_self]
        intro p hp
        have hmem : p.1 ∈ rest.map Prod.fst := List.mem_map_of_mem hp
        have hne : p.1 ≠ name := fun he => hname (he ▸ hmem)
        simpa using hne
      rw [List.filter_cons_of_neg (by simp), hkept, List.lookup_cons_self]
      exact .refl _
    · have hne : (u == name) = false := by simpa using Ne.symm hu
      rw [List.filter_cons_of_pos (by simpa using hu), List.lookup_cons, hne, List.flatMap_cons,
        List.flatMap_cons]
      exact ((ih hrest).append_left _).trans (List.perm_append_comm_assoc _ _ _)

theorem staged_perm (h : (s.units.map Prod.fst).Nodup) (u : UnitId) :
    s.staged.Perm ((s.unit u).entries ++ (s.without u).staged) :=
  flatMap_entries_perm h u

theorem setUnit_of_not_isOpen (ho : ¬s.IsOpen u) (w : WorkUnit) : s.setUnit u w = s := by
  have hunits : (s.units.map fun p => if p.1 = u then (p.1, w) else p) = s.units := by
    refine (List.map_congr_left fun p hp => ?_).trans (List.map_id _)
    have hmem : p.1 ∈ s.units.map Prod.fst := List.mem_map_of_mem hp
    have hne : p.1 ≠ u := fun he => ho (he ▸ hmem)
    exact if_neg hne
  rw [setUnit]
  exact congrArg (fun units => { s with units }) hunits

theorem units_without_setUnit (s : Store) (u : UnitId) (w : WorkUnit) :
    ((s.setUnit u w).without u).units = (s.without u).units := by
  have hcases (p : UnitId × WorkUnit) : (if p.1 = u then (p.1, w) else p).1 = p.1 := by
    split <;> rfl
  have hunits : (s.units.map fun p => if p.1 = u then (p.1, w) else p).filter (·.1 ≠ u) =
      s.units.filter (·.1 ≠ u) := by
    rw [List.filter_map]
    simp only [Function.comp_def, hcases]
    refine (List.map_congr_left fun p hp => ?_).trans (List.map_id _)
    exact if_neg (by simpa using (List.mem_filter.mp hp).2)
  exact hunits

theorem staged_setUnit (h : (s.units.map Prod.fst).Nodup) (ho : s.IsOpen u) (w : WorkUnit) :
    (s.setUnit u w).staged.Perm (w.entries ++ (s.without u).staged) := by
  have hperm := staged_perm (s := s.setUnit u w) (by rwa [map_fst_setUnit]) u
  have hstaged : ((s.setUnit u w).without u).staged = (s.without u).staged :=
    congrArg (List.flatMap _) (units_without_setUnit s u w)
  rwa [unit_setUnit_self ho, hstaged] at hperm

theorem staged_setUnit_same (h : (s.units.map Prod.fst).Nodup) {w : WorkUnit}
    (hw : w.entries = (s.unit u).entries) : (s.setUnit u w).staged.Perm s.staged := by
  by_cases ho : s.IsOpen u
  · have hset := staged_setUnit h ho w
    rw [hw] at hset
    exact hset.trans (staged_perm h u).symm
  · rw [setUnit_of_not_isOpen ho]

theorem staged_handOver (h : (s.units.map Prod.fst).Nodup) (id : AccountId) :
    (s.handOver id).staged.Perm s.staged := by
  rw [handOver_eq]
  split
  · exact .refl _
  · rename_i u _
    exact staged_setUnit_same (s := { s with waiting := s.waiting.erase (u, id) }) h rfl

theorem staged_foldl_handOver (h : (s.units.map Prod.fst).Nodup) (ids : List AccountId) :
    (ids.foldl handOver s).staged.Perm s.staged := by
  induction ids generalizing s with
  | nil => exact .refl _
  | cons id rest ih =>
    have hnames : ((s.handOver id).units.map Prod.fst).Nodup := by rwa [map_fst_handOver]
    exact (ih hnames).trans (staged_handOver h id)

theorem staged_close (h : (s.units.map Prod.fst).Nodup) (u : UnitId) :
    (s.close u).staged.Perm (s.without u).staged := by
  rw [close_eq]
  apply staged_foldl_handOver
  rw [map_fst_without]
  exact h.filter _

@[simp] theorem lastKey_handOver (s : Store) (id : AccountId) :
    (s.handOver id).lastKey = s.lastKey := by
  rw [handOver_eq]; split <;> rfl

@[simp] theorem lastKey_close (s : Store) (u : UnitId) : (s.close u).lastKey = s.lastKey := by
  rw [close_eq]
  generalize (s.unit u).held = ids
  have hfold (s : Store) : (ids.foldl handOver s).lastKey = s.lastKey := by
    induction ids generalizing s with
    | nil => rfl
    | cons id rest ih => rw [List.foldl_cons, ih, lastKey_handOver]
  exact hfold _

/-! ## Keys that are given out -/

/-- Keys are given out one after the other, also up to a draft that is not accepted. -/
theorem exists_stage (free : List Entry → Draft → Bool) (key : Nat) (before : List Entry)
    (drafts : List Draft) :
    key ≤ (stage free key before drafts).2 ∧
    ∀ after, (stage free key before drafts).1 = some after →
      ∃ new, after = before ++ new ∧
        new.map (·.id.value) = (List.range' (key + 1) drafts.length).map Int.ofNat ∧
        (stage free key before drafts).2 = key + drafts.length := by
  induction drafts generalizing key before with
  | nil =>
    refine ⟨Nat.le_refl _, fun after hafter => ⟨[], ?_, rfl, rfl⟩⟩
    cases hafter
    exact (List.append_nil _).symm
  | cons d rest ih =>
    rw [stage]
    split
    · obtain ⟨hle, hnew⟩ := ih (key + 1) (before ++ [d.stored ⟨(key + 1 : Nat)⟩ none])
      refine ⟨Nat.le_of_succ_le hle, fun after hafter => ?_⟩
      obtain ⟨new, rfl, hids, hlast⟩ := hnew after hafter
      refine ⟨d.stored ⟨(key + 1 : Nat)⟩ none :: new, by simp, ?_, ?_⟩
      · rw [List.map_cons, hids, List.length_cons, List.range'_succ, List.map_cons]
        rfl
      · rw [hlast, List.length_cons]
        omega
    · exact ⟨Nat.le_refl _, fun after hafter => by cases hafter⟩

/-- The entries after a step are some of those before it and new ones, whose keys were given out during
the step. -/
structure Draws (s s' : Store) (new : List Entry) : Prop where
  written : s'.written.Subperm (s.written ++ new)
  lastKey : s.lastKey ≤ s'.lastKey
  fresh : ∀ e ∈ new, (s.lastKey : Int) < e.id.value ∧ e.id.value ≤ s'.lastKey
  nodup : (new.map (·.id.value)).Nodup

namespace Draws

theorem none (hperm : s'.written.Subperm s.written) (hkey : s.lastKey ≤ s'.lastKey) :
    s.Draws s' [] where
  written := by rwa [List.append_nil]
  lastKey := hkey
  fresh := by simp
  nodup := List.nodup_nil

theorem same (hentries : s'.entries = s.entries) (hstaged : s'.staged.Perm s.staged)
    (hkey : s'.lastKey = s.lastKey) : s.Draws s' [] := by
  refine none ?_ (Nat.le_of_eq hkey.symm)
  rw [Store.written, Store.written, hentries]
  exact (hstaged.append_left _).subperm

theorem close (h : (s.units.map Prod.fst).Nodup) (u : UnitId) : s.Draws (s.close u) [] := by
  refine none ?_ (Nat.le_of_eq (lastKey_close s u).symm)
  rw [Store.written, Store.written, entries_close]
  have hsub : (s.without u).staged.Subperm s.staged :=
    ((List.sublist_append_right _ _).subperm).trans (staged_perm h u).symm.subperm
  exact (List.subperm_append_left _).mpr ((staged_close h u).subperm.trans hsub)

theorem merge_close (h : (s.units.map Prod.fst).Nodup) (u : UnitId) :
    s.Draws ((s.merge (s.unit u)).close u) [] := by
  refine none ?_ (Nat.le_of_eq (lastKey_close (s.merge (s.unit u)) u).symm)
  have hclosed : ((s.merge (s.unit u)).close u).staged.Perm (s.without u).staged :=
    staged_close (s := s.merge (s.unit u)) h u
  rw [Store.written, Store.written, entries_close, merge, List.append_assoc]
  exact ((hclosed.append_left _).trans (staged_perm h u).symm).append_left _ |>.subperm

theorem setUnit (h : (s.units.map Prod.fst).Nodup) (ho : s.IsOpen u) {new : List Entry} {key : Nat}
    (hkey : s.lastKey ≤ key)
    (hfresh : ∀ e ∈ new, (s.lastKey : Int) < e.id.value ∧ e.id.value ≤ key)
    (hnodup : (new.map (·.id.value)).Nodup) :
    s.Draws ({ s with lastKey := key }.setUnit u
      { s.unit u with entries := (s.unit u).entries ++ new }) new := by
  refine ⟨?_, hkey, hfresh, hnodup⟩
  have hset : (Store.setUnit { s with lastKey := key } u
      { s.unit u with entries := (s.unit u).entries ++ new }).staged.Perm
        ((s.unit u).entries ++ new ++ (s.without u).staged) :=
    staged_setUnit (s := { s with lastKey := key }) h ho _
  have hmove : ((s.unit u).entries ++ new ++ (s.without u).staged).Perm (s.staged ++ new) := by
    have hswap : ((s.unit u).entries ++ new ++ (s.without u).staged).Perm
        ((s.unit u).entries ++ (s.without u).staged ++ new) := by
      rw [List.append_assoc, List.append_assoc]
      exact List.perm_append_comm.append_left _
    exact hswap.trans ((staged_perm h u).symm.append_right _)
  rw [Store.written, Store.written, entries_setUnit, List.append_assoc]
  exact ((hset.trans hmove).append_left _).subperm

theorem append (h : (s.units.map Prod.fst).Nodup) (ho : s.IsOpen u) (drafts : List Draft) :
    ∃ new, s.Draws (s.append u drafts).2 new := by
  obtain ⟨hle, hnew⟩ := exists_stage (s.isFree u) s.lastKey [] drafts
  unfold Store.append
  split
  · rename_i new key hstage
    rw [hstage] at hle hnew
    obtain ⟨_, rfl, hids, rfl⟩ := hnew new rfl
    refine ⟨new, setUnit h ho hle ?_ ?_⟩
    · intro e he
      have hmem : e.id.value ∈ (List.range' (s.lastKey + 1) drafts.length).map Int.ofNat :=
        hids ▸ List.mem_map_of_mem he
      obtain ⟨n, hn, hvalue⟩ := List.mem_map.mp hmem
      rw [List.mem_range'_1] at hn
      rw [← hvalue]
      simp only [Int.ofNat_eq_natCast]
      omega
    · rw [hids]
      exact List.Nodup.map (fun a b hab => Int.ofNat.inj hab) List.nodup_range'
  · rename_i key hstage
    rw [hstage] at hle
    exact ⟨[], none (List.Subperm.refl _) hle⟩

theorem of_replied (hs : s.Sound) {c : Call} {r : c.Reply}
    (hopen : ∀ u, c.unit? = some u → s.IsOpen u) (h : s.respond c = .replied r s') :
    ∃ new, s.Draws s' new := by
  cases c with
  | openUnit =>
    cases h
    have hstaged : s.openUnit.2.staged = s.staged := by simp [staged, openUnit]
    exact ⟨[], same rfl (.of_eq hstaged) rfl⟩
  | lockAccount u id =>
    rcases (lock_replied h).2 with ⟨-, rfl⟩ | ⟨-, rfl⟩
    · exact ⟨[], same rfl (.refl _) rfl⟩
    · exact ⟨[], same rfl (staged_setUnit_same hs.names rfl) rfl⟩
  | upsertAccount u a =>
    cases h
    exact ⟨[], same rfl (staged_setUnit_same hs.names rfl) rfl⟩
  | append u drafts =>
    cases h
    exact append hs.names (hopen u rfl) drafts
  | commit u =>
    cases h
    rcases s.commit_cases u with ⟨-, he⟩ | he <;> rw [he]
    · exact ⟨[], merge_close hs.names u⟩
    · exact ⟨[], close hs.names u⟩
  | rollback u =>
    cases h
    exact ⟨[], close hs.names u⟩
  | _ =>
    cases h
    exact ⟨[], same rfl (.refl _) rfl⟩

end Draws

/-! ## The entries of a store in use -/

/-- Committed entries have keys of their own, and so have all entries that there are; a key that was
given out lies between 1 and the last one. -/
structure Integral (s : Store) : Prop where
  keys : (s.entries.map Entry.key).Nodup
  ids : (s.written.map (·.id.value)).Nodup
  range : ∀ e ∈ s.written, 1 ≤ e.id.value ∧ e.id.value ≤ s.lastKey

/-- Nothing committed is lost or moved, and every new entry has a key that was not given out before. -/
structure Extends (s s' : Store) : Prop where
  entries : s.entries <+: s'.entries
  lastKey : s.lastKey ≤ s'.lastKey
  fresh : ∀ e ∈ s'.written, e ∈ s.written ∨ (s.lastKey : Int) < e.id.value

theorem integral_empty : Integral {} where
  keys := List.nodup_nil
  ids := List.nodup_nil
  range := by simp [written, staged]

theorem Extends.refl (s : Store) : s.Extends s := ⟨List.prefix_refl _, Nat.le_refl _, fun _ => .inl⟩

theorem Extends.trans (h : s.Extends s') (h' : s'.Extends s'') : s.Extends s'' where
  entries := h.entries.trans h'.entries
  lastKey := Nat.le_trans h.lastKey h'.lastKey
  fresh e he := by
    rcases h'.fresh e he with he | he
    · exact h.fresh e he
    · have hle := h.lastKey
      exact .inr (by omega)

theorem Committable.nodup_keys {w : WorkUnit} (h : s.Committable w)
    (hs : (s.entries.map Entry.key).Nodup) : ((s.entries ++ w.entries).map Entry.key).Nodup := by
  rw [List.map_append]
  refine List.nodup_append.mpr ⟨hs, h.1, ?_⟩
  intro a ha b hb he
  obtain ⟨e, hmem, rfl⟩ := List.mem_map.mp ha
  obtain ⟨e', hmem', rfl⟩ := List.mem_map.mp hb
  exact h.2 e' hmem' ⟨e, hmem, he⟩

theorem Integral.nodup_append {new : List Entry} (hs : s.Integral) (h : s.Draws s' new) :
    ((s.written ++ new).map (·.id.value)).Nodup := by
  rw [List.map_append]
  refine List.nodup_append.mpr ⟨hs.ids, h.nodup, ?_⟩
  intro a ha b hb he
  obtain ⟨e, hmem, rfl⟩ := List.mem_map.mp ha
  obtain ⟨e', hmem', rfl⟩ := List.mem_map.mp hb
  have hold := (hs.range e hmem).2
  have hnew := (h.fresh e' hmem').1
  omega

theorem Integral.draws {new : List Entry} (hs : s.Integral) (h : s.Draws s' new)
    (hentries : s'.entries = s.entries ∨
      ∃ w : WorkUnit, s.Committable w ∧ s'.entries = s.entries ++ w.entries) :
    s'.Integral ∧ s.Extends s' := by
  have hle := h.lastKey
  refine ⟨⟨?_, ?_, ?_⟩, ?_, hle, ?_⟩
  · rcases hentries with he | ⟨w, hcommittable, he⟩ <;> rw [he]
    · exact hs.keys
    · exact hcommittable.nodup_keys hs.keys
  · obtain ⟨kept, hperm, hsub⟩ := h.written
    exact (hperm.map _).nodup_iff.mp ((hs.nodup_append h).sublist (hsub.map _))
  · intro e he
    rcases List.mem_append.mp (h.written.subset he) with he | he
    · have hold := hs.range e he
      omega
    · have hnew := h.fresh e he
      omega
  · rcases hentries with he | ⟨w, -, he⟩
    · exact ⟨[], by rw [he, List.append_nil]⟩
    · exact ⟨w.entries, he.symm⟩
  · intro e he
    rcases List.mem_append.mp (h.written.subset he) with he | he
    · exact .inl he
    · exact .inr (h.fresh e he).1

theorem entries_of_replied {c : Call} {r : c.Reply} (h : s.respond c = .replied r s') :
    s'.entries = s.entries ∨
      ∃ w : WorkUnit, s.Committable w ∧ s'.entries = s.entries ++ w.entries := by
  cases hc : (Observation.replied c r).isCommit with
  | false => exact .inl ((Told.answered h).same hc).2
  | true =>
    cases c with
    | commit u =>
      cases r with
      | ok a =>
        obtain ⟨hcommittable, rfl⟩ := (Told.answered h).commit
        exact .inr ⟨s.unit u, hcommittable, entries_close _ u⟩
      | error e => cases hc
    | _ => cases hc

end Store

namespace Usage

open Store

theorem integral_step {x : Usage} (hs : x.store.Sound) (h : x.store.Integral) (a : Access) :
    (x.step a).store.Integral ∧ x.store.Extends (x.step a).store := by
  rcases x.step_cases a with ⟨waiting, he⟩ | ⟨u, -, he⟩ | ⟨c, r, s', -, hopen, hr, he⟩ <;> rw [he]
  · have hdraws : x.store.Draws { x.store with waiting } [] := .same rfl (.refl _) rfl
    exact h.draws hdraws (.inl rfl)
  · exact h.draws (.close hs.names u) (.inl (entries_close x.store u))
  · obtain ⟨new, hdraws⟩ := Draws.of_replied hs hopen hr
    exact h.draws hdraws (entries_of_replied hr)

theorem integral_run {x : Usage} (hs : x.store.Sound) (h : x.store.Integral)
    (accesses : List Access) :
    (x.run accesses).store.Sound ∧ (x.run accesses).store.Integral ∧
      x.store.Extends (x.run accesses).store := by
  induction accesses using List.reverseRecOn with
  | nil => exact ⟨hs, h, .refl _⟩
  | append_singleton accesses a ih =>
    obtain ⟨hsound, hintegral, hextends⟩ := ih
    obtain ⟨hnext, hlater⟩ := integral_step hsound hintegral a
    rw [run_concat]
    exact ⟨sound_step hsound a, hnext, hextends.trans hlater⟩

/-- Whatever units of work do with an empty store in any order, no two committed entries share an account
and a number, no two entries that are committed or with an open unit share a key, and keys lie between 1
and the last one given out. Later on this last key is not smaller, every entry was there already or has a
larger key than it, and each stream begins with what it was. -/
theorem log_integrity (before after : List Access) :
    let s := ((fresh [] [] 0).run before).store
    let s' := ((fresh [] [] 0).run (before ++ after)).store
    (s.entries.map Entry.key).Nodup ∧
    ((s.entries ++ s.staged).map (·.id.value)).Nodup ∧
    (∀ e ∈ s.entries ++ s.staged, 1 ≤ e.id.value ∧ e.id.value ≤ s.lastKey) ∧
    s.lastKey ≤ s'.lastKey ∧
    (∀ e ∈ s'.entries ++ s'.staged, e ∈ s.entries ++ s.staged ∨ s.lastKey < e.id.value) ∧
    ∀ id, s.entries.filter (fun e => e.account = id) <+:
      s'.entries.filter (fun e => e.account = id) := by
  intro s s'
  obtain ⟨hsound, hs, -⟩ := integral_run (x := fresh [] [] 0) sound_empty integral_empty before
  obtain ⟨-, -, hs'⟩ := integral_run hsound hs after
  rw [← run_append] at hs'
  refine ⟨hs.keys, hs.ids, hs.range, hs'.lastKey, hs'.fresh, ?_⟩
  intro id
  exact hs'.entries.filter _

end Usage

end Bookkeeping
