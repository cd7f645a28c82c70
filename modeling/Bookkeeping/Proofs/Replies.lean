import Bookkeeping.Proofs.Interleaving
import Bookkeeping.Proofs.Units

/-! # Where replies come from

Whatever is armed on a store, a call is either answered by the store itself, or refused with an
error that leaves the store as it was up to the end of a unit of work, or it is a lookup of a
transaction that is made to find nothing. Without injections the last does not happen.
-/
namespace Bookkeeping
open Bookkeeping.Time

namespace Store

/-- The store after a call that was refused: the end of a unit of work drops it. -/
def dropEnding (s : Store) : Call → Store
  | .commit u | .rollback u => s.close u
  | _ => s

/-- A reply to a call, and the store after it. -/
inductive Told (s : Store) : (c : Call) → c.Reply → Store → Prop where
  | answered {c : Call} {r : c.Reply} {s' : Store} (h : s.respond c = .replied r s') : Told s c r s'
  | refused (c : Call) (e : StoreError) : Told s c (.error e) (s.dropEnding c)
  | overlooked (t : TransactionId) : Told s (.findByTransaction t) (.ok []) s
  | overlookedIn (u : UnitId) (t : TransactionId) : Told s (.findByTransactionIn u t) (.ok []) s

variable {s s' : Store} {c : Call} {r : c.Reply}

@[simp] theorem rows_dropEnding (s : Store) (c : Call) : (s.dropEnding c).rows = s.rows := by
  cases c <;> simp [dropEnding]

@[simp] theorem entries_dropEnding (s : Store) (c : Call) :
    (s.dropEnding c).entries = s.entries := by
  cases c <;> simp [dropEnding]

theorem commit_cases (s : Store) (u : UnitId) :
    (s.Committable (s.unit u) ∧ s.commit u = (.ok (), (s.merge (s.unit u)).close u)) ∨
      s.commit u = (.error (.conflict .commit), s.close u) := by
  by_cases h : s.Committable (s.unit u)
  · exact .inl ⟨h, by simp [commit, h]⟩
  · exact .inr (by simp [commit, h])

theorem append_cases (s : Store) (u : UnitId) (drafts : List Draft) :
    (∃ staged key, stage (s.isFree u) s.lastKey [] drafts = (some staged, key) ∧
      s.append u drafts = (.ok (), { s with lastKey := key }.setUnit u
        { s.unit u with entries := (s.unit u).entries ++ staged })) ∨
      ∃ key, s.append u drafts = (.error (.conflict .append), { s with lastKey := key }) := by
  unfold append
  cases h : stage (s.isFree u) s.lastKey [] drafts with
  | mk staged key =>
    cases staged with
    | none => exact .inr ⟨key, rfl⟩
    | some staged => exact .inl ⟨staged, key, rfl, rfl⟩

theorem lock_replied {u : UnitId} {id : AccountId} {r : (Call.lockAccount u id).Reply}
    (h : s.lock u id = .replied r s') :
    r = foundOr "account" (s.rowIn u id) ∧
      ((id ∈ (s.unit u).held ∧ s' = s) ∨ (s.IsFreeLock id ∧ s' = s.giveLock u id)) := by
  unfold lock at h
  split at h
  · rename_i hheld
    cases h
    exact ⟨rfl, .inl ⟨hheld, rfl⟩⟩
  · split at h
    · cases h
    · rename_i hfree
      cases h
      exact ⟨rfl, .inr ⟨isFreeLock_of_not_locked hfree, rfl⟩⟩

/-- Nothing but a commit that succeeds changes what is committed. -/
theorem Told.same (h : s.Told c r s') (hc : (Observation.replied c r).isCommit = false) :
    s'.rows = s.rows ∧ s'.entries = s.entries := by
  cases h with
  | answered h =>
    cases c with
    | lockAccount u id =>
      rcases (lock_replied h).2 with ⟨-, rfl⟩ | ⟨-, rfl⟩ <;> exact ⟨rfl, rfl⟩
    | append u drafts =>
      cases h
      rcases s.append_cases u drafts with ⟨_, _, -, he⟩ | ⟨_, he⟩ <;> rw [he] <;> exact ⟨rfl, rfl⟩
    | commit u =>
      cases h
      rcases s.commit_cases u with ⟨-, he⟩ | he
      · rw [he] at hc
        cases hc
      · rw [he]
        exact ⟨rows_close s u, entries_close s u⟩
    | rollback u => cases h; exact ⟨rows_close s u, entries_close s u⟩
    | _ => cases h; exact ⟨rfl, rfl⟩
  | refused c e => exact ⟨rows_dropEnding s c, entries_dropEnding s c⟩
  | overlooked t => exact ⟨rfl, rfl⟩
  | overlookedIn u t => exact ⟨rfl, rfl⟩

theorem Told.commit {u : UnitId} {a : Unit} (h : s.Told (.commit u) (.ok a) s') :
    s.Committable (s.unit u) ∧ s' = (s.merge (s.unit u)).close u := by
  cases h with
  | answered h =>
    rcases s.commit_cases u with ⟨hc, he⟩ | he
    · simp only [respond, he] at h
      cases h
      exact ⟨hc, rfl⟩
    · simp only [respond, he] at h
      cases h

theorem Sound.giveLock (h : s.Sound) {u : UnitId} {id : AccountId} (hid : s.IsFreeLock id) :
    (s.giveLock u id).Sound := by
  refine h.of_held (map_fst_setUnit _ _ _) rfl hid (some u) ?_
  intro v
  rw [Store.giveLock, unit_setUnit]
  by_cases hv : v = u
  · subst hv
    by_cases ho : s.IsOpen v <;> simp [ho]
  · simp [hv, Ne.symm hv]

theorem Sound.setUnit (h : s.Sound) {u : UnitId} {w : WorkUnit} (hw : w.held = (s.unit u).held) :
    (s.setUnit u w).Sound := by
  apply h.of_same (map_fst_setUnit _ _ _) rfl
  intro v
  rw [unit_setUnit]
  split
  · rename_i hv
    rw [hw, hv.1]
  · rfl

theorem Sound.openUnit (h : s.Sound) : s.openUnit.2.Sound where
  names := by
    simp only [Store.openUnit, List.map_append, List.map_cons, List.map_nil]
    refine List.nodup_append.mpr ⟨h.names, by simp, ?_⟩
    intro u hu v hv he
    rw [List.mem_singleton] at hv
    have hlt := h.lt_opened u hu
    rw [he, hv] at hlt
    exact Nat.lt_irrefl _ hlt
  lt_opened u hu := by
    simp only [Store.openUnit, IsOpen, List.map_append, List.mem_append] at hu ⊢
    rcases hu with hu | hu
    · exact Nat.lt_succ_of_lt (h.lt_opened u hu)
    · rw [List.map_cons, List.map_nil, List.mem_singleton] at hu
      rw [hu]
      exact Nat.lt_succ_self _
  nodup_held u := by rw [unit_openUnit]; exact h.nodup_held u
  exclusive u v id hu hv := by
    rw [unit_openUnit] at hu hv
    exact h.exclusive u v id hu hv

/-! ## What a reply does to the units of work -/

structure Alike (s s' : Store) : Prop where
  units : s'.units = s.units
  waiting : s'.waiting = s.waiting
  opened : s'.opened = s.opened

namespace Alike

theorem refl (s : Store) : s.Alike s := ⟨rfl, rfl, rfl⟩

theorem unit_eq (h : s.Alike s') (v : UnitId) : s'.unit v = s.unit v := by
  rw [unit, unit, h.units]

theorem isOpen_iff {v : UnitId} (h : s.Alike s') : s'.IsOpen v ↔ s.IsOpen v := by
  rw [IsOpen, IsOpen, h.units]

theorem sound (h : s.Alike s') (hs : s.Sound) : s'.Sound :=
  hs.of_same (congrArg _ h.units) h.opened fun v => by rw [h.unit_eq]

end Alike

/-- A reply leaves the units of work alone, opens one, gives one a free lock, or changes what the unit
of the call has written, or ends it. -/
inductive Alters (s : Store) : (c : Call) → c.Reply → Store → Prop where
  | nothing {c : Call} {r : c.Reply} {s' : Store} (same : s.Alike s') : Alters s c r s'
  | opens : Alters s .openUnit (.ok s.openUnit.1) s.openUnit.2
  | locks {u : UnitId} {id : AccountId} {r : (Call.lockAccount u id).Reply}
      (free : s.IsFreeLock id) : Alters s (.lockAccount u id) r (s.giveLock u id)
  | writes {c : Call} {r : c.Reply} {s₁ : Store} {u : UnitId} {w : WorkUnit} (same : s.Alike s₁)
      (unit : c.unit? = some u) (held : w.held = (s.unit u).held) : Alters s c r (s₁.setUnit u w)
  | closes {c : Call} {r : c.Reply} {s₁ : Store} {u : UnitId} (same : s.Alike s₁)
      (unit : c.unit? = some u) : Alters s c r (s₁.close u)

theorem Told.alters (h : s.Told c r s') : s.Alters c r s' := by
  have hsame : s.Alters c r s := .nothing (.refl s)
  cases h with
  | answered h =>
    cases c with
    | openUnit => cases h; exact .opens
    | lockAccount u id =>
      rcases (lock_replied h).2 with ⟨-, rfl⟩ | ⟨hfree, rfl⟩
      · exact hsame
      · exact .locks hfree
    | upsertAccount u a => cases h; exact .writes (.refl s) rfl rfl
    | append u drafts =>
      cases h
      rcases s.append_cases u drafts with ⟨_, key, -, he⟩ | ⟨key, he⟩ <;> rw [he]
      · have hkey : s.Alike { s with lastKey := key } := ⟨rfl, rfl, rfl⟩
        exact .writes hkey rfl rfl
      · exact .nothing ⟨rfl, rfl, rfl⟩
    | commit u =>
      cases h
      rcases s.commit_cases u with ⟨-, he⟩ | he <;> rw [he]
      · have hmerge : s.Alike (s.merge (s.unit u)) := ⟨rfl, rfl, rfl⟩
        exact .closes hmerge rfl
      · exact .closes (.refl s) rfl
    | rollback u => cases h; exact .closes (.refl s) rfl
    | _ => cases h; exact hsame
  | refused c e => cases c <;> first | exact hsame | exact .closes (.refl s) rfl
  | overlooked t => exact hsame
  | overlookedIn u t => exact hsame

theorem Told.sound (h : s.Told c r s') (hs : s.Sound) : s'.Sound := by
  cases h.alters with
  | nothing same => exact same.sound hs
  | opens => exact hs.openUnit
  | locks free => exact hs.giveLock free
  | writes same _ held => exact (same.sound hs).setUnit (by rw [held, same.unit_eq])
  | closes same _ => exact (same.sound hs).close _

theorem Told.keeps (h : s.Told c r s') {v : UnitId} (hv : c.unit? ≠ some v) (ho : s.IsOpen v) :
    s.Keeps s' v := by
  have hne : ∀ {u}, c.unit? = some u → v ≠ u := fun hu he => hv (he ▸ hu)
  have halike {s₁ : Store} (h : s.Alike s₁) : s.Keeps s₁ v :=
    .of_unit_eq h.isOpen_iff.mpr (h.unit_eq v)
  cases h.alters with
  | nothing same => exact halike same
  | opens => exact .openUnit ho
  | locks free => exact .setUnit (hne rfl) _
  | writes same unit _ => exact (halike same).trans (.setUnit (hne unit) _)
  | closes same unit => exact (halike same).trans (.close (hne unit))

/-- A call waits only for a lock that its unit of work does not hold and some unit does, and takes a
place in the queue. -/
theorem respond_waits (h : s.respond c = .waits s') :
    ∃ u id, c = .lockAccount u id ∧ id ∉ (s.unit u).held ∧ s.Locked id ∧
      s' = if (u, id) ∈ s.waiting then s else { s with waiting := s.waiting ++ [(u, id)] } := by
  cases c with
  | lockAccount u id =>
    simp only [respond, lock] at h
    split at h
    · cases h
    · rename_i hheld
      split at h
      · rename_i hlocked
        cases h
        exact ⟨u, id, rfl, hheld, hlocked, rfl⟩
      · cases h
  | _ => cases h

end Store

namespace Backend

variable {b b' : Backend} {now : Duration} {c : Call} {phase phase' : Phase}

theorem store_dropEnding (b : Backend) (c : Call) : (b.dropEnding c).store = b.store.dropEnding c := by
  cases c <;> rfl

theorem dropEnding_of_fails (h : b.faults.Fails c.operation) : b.store.dropEnding c = b.store := by
  cases c <;> first | rfl | exact absurd rfl h.2.1 | exact absurd rfl h.2.2

theorem told_of_reply? {e : Effect} {r : c.Reply} (h : e.reply? c = some r) (s : Store) :
    s.Told c r (s.dropEnding c) := by
  cases e with
  | fails e => cases h; exact .refused c e
  | findsNothing =>
    cases c with
    | findByTransaction t => cases h; exact .overlooked t
    | findByTransactionIn u t => cases h; exact .overlookedIn u t
    | _ => cases h

theorem enter_replied {r : c.Reply} (h : b.enter c = .replied r b') : b.store.Told c r b'.store := by
  unfold enter at h
  split at h
  · rename_i hf
    cases h
    have ht := Store.Told.refused (s := b.store) c (.failure c.operation .injected)
    rwa [dropEnding_of_fails hf] at ht
  · cases hr : b.store.respond c with
    | replied r' s' =>
      simp only [hr] at h
      cases h
      exact .answered hr
    | waits s' => simp only [hr] at h; cases h

theorem enter_suspended (h : b.enter c = .suspended phase' b') :
    phase' = .entered ∧ b.store.respond c = .waits b'.store := by
  unfold enter at h
  split at h
  · cases h
  · cases hr : b.store.respond c with
    | replied r s' => simp only [hr] at h; cases h
    | waits s' =>
      simp only [hr] at h
      cases h
      exact ⟨rfl, rfl⟩

theorem enterAt_replied {wake : Duration} {r : c.Reply} (h : b.enterAt now wake c = .replied r b') :
    b.store.Told c r b'.store := by
  unfold enterAt at h
  split at h
  · exact enter_replied h
  · cases h

theorem enterAt_suspended {wake : Duration} (h : b.enterAt now wake c = .suspended phase' b') :
    (phase' = .asleep wake ∧ b'.store = b.store) ∨
      (phase' = .entered ∧ b.store.respond c = .waits b'.store) := by
  unfold enterAt at h
  split at h
  · exact .inr (enter_suspended h)
  · cases h
    exact .inl ⟨rfl, rfl⟩

theorem start_eq (b : Backend) (now : Duration) (c : Call) :
    b.start now c = b.enter c ∨ ∃ wake, b.start now c = b.enterAt now wake c := by
  cases c with
  | lockAccount u id =>
    cases hd : b.faults.lockDelay with
    | none => exact .inl (by simp [start, hd])
    | some delay => exact .inr ⟨⟨now.nanos + delay.nanos⟩, by simp [start, hd]⟩
  | _ => exact .inl rfl

theorem start_replied {r : c.Reply} (h : b.start now c = .replied r b') :
    b.store.Told c r b'.store := by
  rcases b.start_eq now c with he | ⟨wake, he⟩
  · exact enter_replied (he ▸ h)
  · exact enterAt_replied (he ▸ h)

theorem start_suspended (h : b.start now c = .suspended phase' b') :
    ((∃ wake, phase' = .asleep wake) ∧ b'.store = b.store) ∨
      (phase' = .entered ∧ b.store.respond c = .waits b'.store) := by
  rcases b.start_eq now c with he | ⟨wake, he⟩
  · exact .inr (enter_suspended (he ▸ h))
  · exact (enterAt_suspended (he ▸ h)).imp_left fun hw => ⟨⟨wake, hw.1⟩, hw.2⟩

theorem attempt_replied {r : c.Reply} (h : b.attempt now c phase = .replied r b') :
    b.store.Told c r b'.store := by
  unfold attempt at h
  cases phase with
  | fresh =>
    simp only at h
    split at h
    · rename_i reply heq
      cases h
      obtain ⟨e, -, he⟩ := Option.bind_eq_some_iff.mp heq
      rw [store_dropEnding]
      exact told_of_reply? he b.store
    · have ht := start_replied h
      exact ht
  | asleep wake => exact enterAt_replied h
  | entered =>
    cases hr : b.store.respond c with
    | replied r' s' =>
      simp only [hr] at h
      cases h
      exact .answered hr
    | waits s' => simp only [hr] at h; cases h

/-- A call without a reply sleeps, which one that has entered never does again, or it waits for a lock
of the store. -/
theorem attempt_suspended_cases (h : b.attempt now c phase = .suspended phase' b') :
    (phase ≠ .entered ∧ (∃ wake, phase' = .asleep wake) ∧ b'.store = b.store) ∨
      (phase' = .entered ∧ b.store.respond c = .waits b'.store) := by
  unfold attempt at h
  cases phase with
  | fresh =>
    simp only at h
    split at h
    · cases h
    · exact (start_suspended h).imp_left fun hw => ⟨by simp, hw⟩
  | asleep wake => exact (enterAt_suspended h).imp_left fun hw => ⟨by simp, ⟨wake, hw.1⟩, hw.2⟩
  | entered =>
    cases hr : b.store.respond c with
    | replied r s' => simp only [hr] at h; cases h
    | waits s' =>
      simp only [hr] at h
      cases h
      exact .inr ⟨rfl, rfl⟩

/-- An attempt that brings no reply changes nothing but the queue before the locks. -/
theorem attempt_suspended (h : b.attempt now c phase = .suspended phase' b') :
    ∃ waiting, b'.store = { b.store with waiting } := by
  rcases attempt_suspended_cases h with ⟨-, -, hb⟩ | ⟨-, hw⟩
  · exact ⟨b.store.waiting, hb⟩
  · obtain ⟨u, id, -, -, -, hb⟩ := Store.respond_waits hw
    split at hb
    · exact ⟨b.store.waiting, hb⟩
    · exact ⟨_, hb⟩

theorem attempt_entered {r : c.Reply} (h : b.attempt now c .entered = .replied r b') :
    b.store.respond c = .replied r b'.store := by
  simp only [attempt] at h
  cases hr : b.store.respond c with
  | replied r' s' =>
    simp only [hr] at h
    cases h
    rfl
  | waits s' => simp only [hr] at h; cases h

end Backend

end Bookkeeping
