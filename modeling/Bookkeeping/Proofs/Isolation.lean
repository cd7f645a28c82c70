import Bookkeeping.Proofs.StoreUse

/-! # Units of work are isolated

What is committed at any moment is what was there at first, with the writes of exactly those units of
work whose commits succeeded, unit by unit in the order of the commits. What a unit has written while it
is open is what was accepted from it, and no read outside of it depends on that.
-/
namespace Bookkeeping

/-! ## What a unit of work was granted -/

namespace Observation

/-- The drafts that a unit of work has appended by this. -/
def appended (u : UnitId) : Observation → List Draft
  | .replied (.append v drafts) (.ok _) => if v = u then drafts else []
  | _ => []

def upserted (u : UnitId) : Observation → List Account
  | .replied (.upsertAccount v a) (.ok _) => if v = u then [a] else []
  | _ => []

def committed? : Observation → Option UnitId
  | .replied (.commit u) (.ok _) => some u
  | _ => none

end Observation

/-- A unit of work has written what was accepted from it, and a row that it wrote again as it wrote it
last. -/
structure WorkUnit.Holds (w : WorkUnit) (u : UnitId) (history : List Observation) : Prop where
  entries : w.entries.map (·.toDraft) = history.flatMap (·.appended u)
  rows : w.rows = (history.flatMap (·.upserted u)).foldl (fun rows a => putRow a rows) []

namespace Store

variable {s s' : Store} {c : Call} {r : c.Reply} {u v : UnitId}

/-- What the store has committed, and nothing of what units of work have written. -/
def settled (s : Store) : Store := { rows := s.rows, entries := s.entries }

theorem granted_of_ne (h : c.unit? ≠ some v) :
    (Observation.replied c r).appended v = [] ∧ (Observation.replied c r).upserted v = [] := by
  cases c with
  | append u drafts =>
    have hne : u ≠ v := fun he => h (congrArg some he)
    cases r <;> simp [Observation.appended, Observation.upserted, hne]
  | upsertAccount u a =>
    have hne : u ≠ v := fun he => h (congrArg some he)
    cases r <;> simp [Observation.appended, Observation.upserted, hne]
  | _ => exact ⟨rfl, rfl⟩

def Response.reply? : Response c → Option c.Reply
  | .replied reply _ => some reply
  | .waits _ => none

/-- What is read outside of units of work depends on what is committed only. -/
theorem reply?_settled (s : Store) (hc : c.unit? = none) (hne : c ≠ .openUnit) :
    (s.settled.respond c).reply? = (s.respond c).reply? := by
  cases c with
  | openUnit => exact absurd rfl hne
  | findAccount id => rfl
  | findByTransaction t => rfl
  | findLast id => rfl
  | _ => cases hc

theorem written_of_close (ho : (s.close u).IsOpen v) :
    ((s.close u).unit v).entries = (s.unit v).entries ∧
      ((s.close u).unit v).rows = (s.unit v).rows := by
  have hkeeps : s.Keeps (s.close u) v := .close (isOpen_close.mp ho).1
  exact ⟨hkeeps.entries, hkeeps.rows⟩

theorem written_of_same (hgranted : (Observation.replied c r).appended v = [] ∧
      (Observation.replied c r).upserted v = [])
    (hsame : (s'.unit v).entries = (s.unit v).entries ∧ (s'.unit v).rows = (s.unit v).rows) :
    (s'.unit v).entries.map (·.toDraft) =
      (s.unit v).entries.map (·.toDraft) ++ (Observation.replied c r).appended v ∧
    (s'.unit v).rows =
      ((Observation.replied c r).upserted v).foldl (fun rows a => putRow a rows) (s.unit v).rows := by
  rw [hgranted.1, hgranted.2, hsame.1, hsame.2, List.append_nil]
  exact ⟨rfl, rfl⟩

theorem written_of_replied (h : s.respond c = .replied r s') (ho : s'.IsOpen v) :
    (s'.unit v).entries.map (·.toDraft) =
      (s.unit v).entries.map (·.toDraft) ++ (Observation.replied c r).appended v ∧
    (s'.unit v).rows =
      ((Observation.replied c r).upserted v).foldl (fun rows a => putRow a rows) (s.unit v).rows := by
  cases c with
  | openUnit =>
    cases h
    apply written_of_same ⟨rfl, rfl⟩
    rw [unit_openUnit]
    exact ⟨rfl, rfl⟩
  | lockAccount u id =>
    apply written_of_same ⟨rfl, rfl⟩
    rcases (lock_replied h).2 with ⟨-, rfl⟩ | ⟨-, rfl⟩
    · exact ⟨rfl, rfl⟩
    · have hkeeps := Keeps.giveLock s u id v
      exact ⟨hkeeps.entries, hkeeps.rows⟩
  | upsertAccount u a =>
    cases h
    rw [isOpen_setUnit] at ho
    by_cases hv : v = u
    · subst hv
      rw [unit_setUnit_self ho]
      exact ⟨(List.append_nil _).symm, by simp [Observation.upserted]⟩
    · have hne : (Call.upsertAccount u a).unit? ≠ some v := fun he => hv (Option.some.inj he).symm
      apply written_of_same (granted_of_ne hne)
      rw [unit_setUnit_of_ne hv]
      exact ⟨rfl, rfl⟩
  | append u drafts =>
    cases h
    rcases s.append_cases u drafts with ⟨staged, key, hstage, he⟩ | ⟨key, he⟩ <;> rw [he] at ho ⊢
    · rw [isOpen_setUnit] at ho
      by_cases hv : v = u
      · subst hv
        have hdrafts : staged.map (·.toDraft) = drafts := stage_toDraft hstage
        rw [unit_setUnit_self ho, List.map_append, hdrafts]
        exact ⟨congrArg _ (if_pos rfl).symm, rfl⟩
      · have hne : (Call.append u drafts).unit? ≠ some v := fun he => hv (Option.some.inj he).symm
        exact written_of_same (granted_of_ne hne) (by rw [unit_setUnit_of_ne hv]; exact ⟨rfl, rfl⟩)
    · exact written_of_same ⟨rfl, rfl⟩ ⟨rfl, rfl⟩
  | commit u =>
    cases h
    rcases s.commit_cases u with ⟨-, he⟩ | he <;> rw [he] at ho ⊢
    · exact written_of_same ⟨rfl, rfl⟩ (written_of_close ho)
    · exact written_of_same ⟨rfl, rfl⟩ (written_of_close ho)
  | rollback u =>
    cases h
    exact written_of_same ⟨rfl, rfl⟩ (written_of_close ho)
  | _ =>
    cases h
    exact written_of_same ⟨rfl, rfl⟩ ⟨rfl, rfl⟩

/-- A unit of work is open, or it is yet to be opened. -/
def NotEnded (s : Store) (u : UnitId) : Prop := s.IsOpen u ∨ s.opened ≤ u.value

theorem Sound.unit_of_opened_le (h : s.Sound) (hu : s.opened ≤ u.value) : s.unit u = {} := by
  apply unit_of_not_isOpen
  intro ho
  exact absurd (h.lt_opened u ho) (Nat.not_lt.mpr hu)

theorem opened_le_of_replied (h : s.respond c = .replied r s') : s.opened ≤ s'.opened := by
  cases (Told.answered h).alters with
  | nothing same => exact Nat.le_of_eq same.opened.symm
  | opens => exact Nat.le_succ _
  | locks free => exact Nat.le_refl _
  | writes same _ _ => exact Nat.le_of_eq same.opened.symm
  | closes same _ =>
    rw [opened_close]
    exact Nat.le_of_eq same.opened.symm

theorem notEnded_of_isOpen (h : s.respond c = .replied r s') (ho : s'.IsOpen v) : s.NotEnded v := by
  cases (Told.answered h).alters with
  | nothing same => exact .inl (same.isOpen_iff.mp ho)
  | opens =>
    simp only [IsOpen, openUnit, List.map_append, List.mem_append, List.map_cons, List.map_nil,
      List.mem_singleton] at ho
    rcases ho with ho | rfl
    · exact .inl ho
    · exact .inr (Nat.le_refl _)
  | locks free => exact .inl (isOpen_setUnit.mp ho)
  | writes same _ _ => exact .inl (same.isOpen_iff.mp (isOpen_setUnit.mp ho))
  | closes same _ => exact .inl (same.isOpen_iff.mp (isOpen_close.mp ho).2)

theorem NotEnded.of_replied (hr : s.respond c = .replied r s') (h : s'.NotEnded v) :
    s.NotEnded v := by
  rcases h with h | h
  · exact notEnded_of_isOpen hr h
  · exact .inr (Nat.le_trans (opened_le_of_replied hr) h)

theorem NotEnded.of_close (h : (s.close u).NotEnded v) : s.NotEnded v := by
  rcases h with h | h
  · exact .inl (isOpen_close.mp h).2
  · rw [opened_close] at h
    exact .inr h

/-- Only a commit that succeeds changes what is committed; it adds all that its unit has written. -/
theorem settled_of_replied (h : s.respond c = .replied r s') :
    s'.settled = (s.landing c r).foldl (fun s p => s.merge p.2) s.settled := by
  cases hc : (Observation.replied c r).isCommit with
  | false =>
    obtain ⟨hrows, hentries⟩ := (Told.answered h).same hc
    have hnone : s.landing c r = [] := by
      cases c with
      | commit u =>
        cases r with
        | ok a => cases hc
        | error e => rfl
      | _ => rfl
    rw [hnone, settled, hrows, hentries]
    rfl
  | true =>
    cases c with
    | commit u =>
      cases r with
      | ok a =>
        obtain ⟨-, rfl⟩ := (Told.answered h).commit
        rw [settled, rows_close, entries_close]
        rfl
      | error e => cases hc
    | _ => cases hc

theorem exists_of_mem_landing {p : UnitId × WorkUnit} (hp : p ∈ s.landing c r) :
    ∃ u a, (⟨c, r⟩ : Σ c : Call, c.Reply) = ⟨.commit u, .ok a⟩ ∧ p = (u, s.unit u) := by
  cases c with
  | commit u =>
    cases r with
    | ok a => exact ⟨u, a, rfl, List.mem_singleton.mp hp⟩
    | error e => cases hp
  | _ => cases hp

theorem map_fst_landing (s : Store) (c : Call) (r : c.Reply) :
    (s.landing c r).map (·.1) = (Observation.replied c r).committed?.toList := by
  cases c with
  | commit u => cases r <;> rfl
  | _ => rfl

end Store

namespace WorkUnit.Holds

variable {w w' : WorkUnit} {u : UnitId} {history : List Observation} {o : Observation}

theorem nil (u : UnitId) : Holds {} u [] := ⟨rfl, rfl⟩

theorem concat (h : w.Holds u history)
    (hentries : w'.entries.map (·.toDraft) = w.entries.map (·.toDraft) ++ o.appended u)
    (hrows : w'.rows = (o.upserted u).foldl (fun rows a => putRow a rows) w.rows) :
    w'.Holds u (history ++ [o]) where
  entries := by
    rw [hentries, h.entries]
    simp
  rows := by
    rw [hrows, h.rows]
    simp

theorem concat_of_ne (h : w.Holds u history) {c : Call} {r : c.Reply} (hne : c.unit? ≠ some u) :
    w.Holds u (history ++ [.replied c r]) := by
  obtain ⟨happended, hupserted⟩ := Store.granted_of_ne (r := r) hne
  apply h.concat
  · rw [happended, List.append_nil]
  · rw [hupserted, List.foldl_nil]

end WorkUnit.Holds

namespace Usage

variable {x : Usage} {initial : Store}

/-- What is committed comes from the units of work that have committed, and each unit of work holds what
was granted to it, whether it has committed or can still do so. -/
structure Isolated (x : Usage) (initial : Store) : Prop where
  sound : x.store.Sound
  settled : x.store.settled = x.landed.foldl (fun s p => s.merge p.2) initial.settled
  order : x.landed.map (·.1) = x.history.filterMap (·.committed?)
  holds : ∀ u, x.store.NotEnded u → (x.store.unit u).Holds u x.history
  landed : ∀ p ∈ x.landed, p.2.Holds p.1 x.history ∧ ¬x.store.NotEnded p.1

namespace Isolated

theorem fresh (rows : List Account) (entries : List Entry) (lastKey : Nat) :
    (Usage.fresh rows entries lastKey).Isolated { rows, entries, lastKey } where
  sound := sound_fresh rows entries lastKey
  settled := rfl
  order := rfl
  holds u _ := .nil u
  landed _ hp := absurd hp List.not_mem_nil

theorem of_still (h : x.Isolated initial) {s' : Store} (hsound : s'.Sound)
    (hrows : s'.rows = x.store.rows) (hentries : s'.entries = x.store.entries)
    (hended : ∀ u, s'.NotEnded u → x.store.NotEnded u)
    (hwritten : ∀ u, s'.IsOpen u → (s'.unit u).entries = (x.store.unit u).entries ∧
      (s'.unit u).rows = (x.store.unit u).rows)
    (hopened : s'.opened = x.store.opened) :
    Isolated { x with store := s' } initial where
  sound := hsound
  settled := by
    rw [Store.settled, hrows, hentries]
    exact h.settled
  order := h.order
  holds u hu := by
    have hheld := h.holds u (hended u hu)
    rcases hu with hu | hu
    · obtain ⟨he, hr⟩ := hwritten u hu
      exact ⟨by rw [he, hheld.entries], by rw [hr, hheld.rows]⟩
    · rw [h.sound.unit_of_opened_le (hopened ▸ hu)] at hheld
      rw [hsound.unit_of_opened_le hu]
      exact hheld
  landed p hp := ⟨(h.landed p hp).1, fun hu => (h.landed p hp).2 (hended p.1 hu)⟩

theorem reply (h : x.Isolated initial) {c : Call} {r : c.Reply} {s' : Store}
    (hopen : ∀ u, c.unit? = some u → x.store.IsOpen u) (hr : x.store.respond c = .replied r s') :
    Isolated ⟨s', x.history ++ [.replied c r], x.landed ++ x.store.landing c r⟩ initial := by
  have hsound := (Store.Told.answered hr).sound h.sound
  -- a call never belongs to a unit of work that has ended or is yet to be opened
  have hne {u : UnitId} (hu : ¬x.store.IsOpen u) : c.unit? ≠ some u := fun he => hu (hopen u he)
  refine ⟨hsound, ?_, ?_, ?_, ?_⟩
  · rw [Store.settled_of_replied hr, h.settled, List.foldl_append]
  · rw [List.map_append, List.filterMap_append, h.order, Store.map_fst_landing]
    rfl
  · intro u hu
    have hheld := h.holds u (hu.of_replied hr)
    rcases hu with hu | hu
    · obtain ⟨hentries, hrows⟩ := Store.written_of_replied hr hu
      exact hheld.concat hentries hrows
    · have hle := Nat.le_trans (Store.opened_le_of_replied hr) hu
      have hclosed : ¬x.store.IsOpen u := fun ho =>
        absurd (h.sound.lt_opened u ho) (Nat.not_lt.mpr hle)
      rw [h.sound.unit_of_opened_le hle] at hheld
      rw [hsound.unit_of_opened_le hu]
      exact hheld.concat_of_ne (hne hclosed)
  · intro p hp
    rcases List.mem_append.mp hp with hp | hp
    · obtain ⟨hheld, hended⟩ := h.landed p hp
      exact ⟨hheld.concat_of_ne (hne fun ho => hended (.inl ho)), fun hu => hended (hu.of_replied hr)⟩
    · obtain ⟨u, a, hc, rfl⟩ := Store.exists_of_mem_landing hp
      cases hc
      have ho := hopen u rfl
      obtain ⟨-, rfl⟩ := (Store.Told.answered hr).commit
      refine ⟨(h.holds u (.inl ho)).concat (List.append_nil _).symm rfl, ?_⟩
      rintro (hu | hu)
      · exact (Store.isOpen_close.mp hu).1 rfl
      · rw [Store.opened_close] at hu
        exact absurd (h.sound.lt_opened u ho) (Nat.not_lt.mpr hu)

theorem step (h : x.Isolated initial) (a : Access) : (x.step a).Isolated initial := by
  rcases x.step_cases a with ⟨waiting, he⟩ | ⟨u, -, he⟩ | ⟨c, r, s', -, hopen, hr, he⟩ <;> rw [he]
  · have hsound : ({ x.store with waiting } : Store).Sound := h.sound.of_same rfl rfl fun _ => rfl
    exact h.of_still hsound rfl rfl (fun _ => id) (fun _ _ => ⟨rfl, rfl⟩) rfl
  · exact h.of_still (h.sound.close u) (Store.rows_close _ _) (Store.entries_close _ _)
      (fun _ => Store.NotEnded.of_close) (fun _ => Store.written_of_close) (Store.opened_close _ _)
  · exact h.reply hopen hr

theorem run (rows : List Account) (entries : List Entry) (lastKey : Nat) (accesses : List Access) :
    ((Usage.fresh rows entries lastKey).run accesses).Isolated { rows, entries, lastKey } := by
  induction accesses using List.reverseRecOn with
  | nil => exact fresh rows entries lastKey
  | append_singleton accesses a ih =>
    rw [run_concat]
    exact ih.step a

end Isolated

theorem settled_step (x : Usage) (a : Access) :
    ((x.step a).store.settled = x.store.settled ∧ (x.step a).landed = x.landed) ∨
    ∃ u, a = .call (.commit u) ∧
      (x.step a).history = x.history ++ [.replied (.commit u) (.ok ())] ∧
      (x.step a).landed = x.landed ++ [(u, x.store.unit u)] ∧
      (x.step a).store.settled = x.store.settled.merge (x.store.unit u) := by
  rcases x.step_cases a with ⟨waiting, he⟩ | ⟨u, -, he⟩ | ⟨c, r, s', ha, -, hr, he⟩ <;> rw [he]
  · exact .inl ⟨rfl, rfl⟩
  · refine .inl ⟨?_, rfl⟩
    rw [Store.settled, Store.rows_close, Store.entries_close]
    rfl
  · have hsettled := Store.settled_of_replied hr
    by_cases hnone : x.store.landing c r = []
    · rw [hnone] at hsettled ⊢
      exact .inl ⟨hsettled, List.append_nil _⟩
    · obtain ⟨p, hp⟩ := List.exists_mem_of_ne_nil _ hnone
      obtain ⟨u, a, hc, -⟩ := Store.exists_of_mem_landing hp
      cases hc
      exact .inr ⟨u, ha, rfl, rfl, hsettled⟩

/-- Whatever units of work do with a store in any order, its committed rows and entries are the first
ones with those of the units added whose commits succeeded, in the order of the commits; each of these
units and each open one holds what was accepted from it. No access but such a commit changes what is
committed, and it adds everything at once; reads outside of units of work see what is committed. -/
theorem isolation (rows : List Account) (entries : List Entry) (lastKey : Nat)
    (accesses : List Access) :
    let x := (fresh rows entries lastKey).run accesses
    x.store.settled = x.landed.foldl (fun s p => s.merge p.2) { rows, entries } ∧
    x.landed.map (·.1) = x.history.filterMap (·.committed?) ∧
    (∀ p ∈ x.landed, p.2.Holds p.1 x.history) ∧
    (∀ u, x.store.IsOpen u → (x.store.unit u).Holds u x.history) ∧
    (∀ a, ((x.step a).store.settled = x.store.settled ∧ (x.step a).landed = x.landed) ∨
      ∃ u, a = .call (.commit u) ∧
        (x.step a).history = x.history ++ [.replied (.commit u) (.ok ())] ∧
        (x.step a).landed = x.landed ++ [(u, x.store.unit u)] ∧
        (x.step a).store.settled = x.store.settled.merge (x.store.unit u)) ∧
    (∀ c : Call, c.unit? = none → c ≠ .openUnit →
      (x.store.respond c).reply? = (x.store.settled.respond c).reply?) ∧
    ∀ id, x.store.entriesFor id = x.store.settled.entriesFor id := by
  intro x
  have h : x.Isolated { rows, entries, lastKey } := .run rows entries lastKey accesses
  refine ⟨h.settled, h.order, ?_, ?_, x.settled_step, ?_, ?_⟩
  · intro p hp
    exact (h.landed p hp).1
  · intro u hu
    exact h.holds u (.inl hu)
  · intro c hc hne
    exact (x.store.reply?_settled hc hne).symm
  · intro id
    rfl

end Usage

end Bookkeeping
