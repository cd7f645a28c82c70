import Bookkeeping.Proofs.Uses

/-! # No update is lost

A unit of work that writes only rows which it has read under their locks replaces just what it has read.
Its locks keep everyone else from these rows until it ends: whoever commits a row holds the lock of it,
and a lock has one holder.
-/
namespace Bookkeeping
namespace Store

variable {s s' : Store} {c : Call} {r : c.Reply} {u v : UnitId} {id : AccountId}

/-! ## What a reply does to locks and rows -/

theorem held_of_replied (h : s.respond c = .replied r s') (ho : s'.IsOpen v) :
    (s.unit v).held ⊆ (s'.unit v).held := by
  cases (Told.answered h).alters with
  | nothing same =>
    rw [same.unit_eq]
    exact List.Subset.refl _
  | opens =>
    rw [unit_openUnit]
    exact List.Subset.refl _
  | locks free => exact (Keeps.giveLock s _ _ v).held
  | @writes _ _ s₁ u w same unit held =>
    rw [unit_setUnit]
    split
    · rename_i hv
      rw [hv.1, held]
      exact List.Subset.refl _
    · rw [same.unit_eq]
      exact List.Subset.refl _
  | closes same _ =>
    rw [← same.unit_eq]
    exact (Keeps.close (isOpen_close.mp ho).1).held

theorem findRow_foldr_putRow (id : AccountId) (new rows : List Account) :
    findRow id (new.foldr putRow rows) = (findRow id new).or (findRow id rows) := by
  induction new with
  | nil => rfl
  | cons a rest ih =>
    rw [List.foldr_cons, findRow_putRow, ih]
    by_cases ha : a.id = id
    · simp [findRow, ha]
    · simp [findRow, ha]

/-- A row changes only at the commit of a unit of work that has written it. -/
theorem findRow_of_replied (h : s.respond c = .replied r s')
    (hrow : ∀ u, c = .commit u → ∀ a ∈ (s.unit u).rows, a.id ≠ id) :
    findRow id s'.rows = findRow id s.rows := by
  cases hc : (Observation.replied c r).isCommit with
  | false => rw [((Told.answered h).same hc).1]
  | true =>
    cases c with
    | commit u =>
      cases r with
      | ok a =>
        obtain ⟨-, rfl⟩ := (Told.answered h).commit
        have hnone : findRow id (s.unit u).rows = none := by simpa [findRow] using hrow u rfl
        rw [rows_close, merge, findRow_foldr_putRow, hnone, Option.none_or]
      | error e => cases hc
    | _ => cases hc

theorem mem_rows_of_replied (h : s.respond c = .replied r s') (ho : s'.IsOpen v) {a : Account}
    (ha : a ∈ (s'.unit v).rows) : a ∈ (s.unit v).rows ∨ c = .upsertAccount v a := by
  rw [(written_of_replied h ho).2] at ha
  cases c with
  | upsertAccount u b =>
    cases h
    by_cases hu : u = v
    · subst hu
      simp only [Observation.upserted, if_true, List.foldl_cons, List.foldl_nil, putRow,
        List.mem_cons, List.mem_filter] at ha
      rcases ha with rfl | ha
      · exact .inr rfl
      · exact .inl ha.1
    · simp only [Observation.upserted, hu, if_false, List.foldl_nil] at ha
      exact .inl ha
  | _ => exact .inl ha

end Store

namespace Usage

variable {x : Usage} {u v : UnitId} {id : AccountId}

/-! ## What was first read of a row -/

theorem version_concat (s : Store) (landed : List (UnitId × WorkUnit)) (o : Observation) :
    version ⟨s, x.history ++ [o], landed⟩ u id = (x.version u id).or (o.lockedRead? u id) := by
  simp [version]

theorem version_concat_of_some {r : Except StoreError Account} (h : x.version u id = some r)
    (s : Store) (landed : List (UnitId × WorkUnit)) (o : Observation) :
    version ⟨s, x.history ++ [o], landed⟩ u id = some r := by
  rw [version_concat, h]
  rfl

theorem history_use (x : Usage) (e : Use) : x.history <+: (x.use e).history := by
  rcases x.use_cases e with ⟨a, -, he⟩ | ⟨u, id, -, -, he⟩ | he
  · obtain ⟨waiting, hstep⟩ | ⟨u, -, hstep⟩ | ⟨c, r, s', -, -, -, hstep⟩ := x.step_cases a
    all_goals simp only [he, hstep, List.prefix_rfl, List.prefix_append]
  · simp only [he, List.prefix_rfl]
  · simp only [he, List.prefix_rfl]

theorem history_useAll (x : Usage) (uses : List Use) : x.history <+: (x.useAll uses).history := by
  induction uses using List.reverseRecOn with
  | nil => exact List.prefix_refl _
  | append_singleton uses e ih =>
    rw [useAll_concat]
    exact ih.trans (history_use _ e)

theorem version_useAll {r : Except StoreError Account} (h : x.version u id = some r)
    (uses : List Use) : (x.useAll uses).version u id = some r := by
  obtain ⟨later, he⟩ := x.history_useAll uses
  rw [version] at h
  rw [version, ← he, List.findSome?_append, h]
  rfl

/-- A row that an open unit of work writes was read under its lock before. -/
def Informed (x : Usage) : Use → Prop
  | .access (.call (.upsertAccount u a)) => x.store.IsOpen u → x.version u a.id ≠ none
  | _ => True

def Careful (x : Usage) : List Use → Prop
  | [] => True
  | e :: rest => x.Informed e ∧ (x.use e).Careful rest

instance (x : Usage) (e : Use) : Decidable (x.Informed e) :=
  match e with
  | .access (.call (.upsertAccount u a)) =>
    inferInstanceAs (Decidable (x.store.IsOpen u → ¬x.version u a.id = none))
  | .access (.call (.findAccount _)) | .access (.call (.findByTransaction _))
  | .access (.call (.findLast _)) | .access (.call .openUnit)
  | .access (.call (.lockAccount ..)) | .access (.call (.append ..))
  | .access (.call (.findByTransactionIn ..)) | .access (.call (.findLastIn ..))
  | .access (.call (.commit _)) | .access (.call (.rollback _))
  | .access (.drop _) | .access (.giveUp _) | .letGo .. => .isTrue trivial

instance decidableCareful (x : Usage) : (uses : List Use) → Decidable (x.Careful uses)
  | [] => .isTrue trivial
  | e :: rest =>
    have := decidableCareful (x.use e) rest
    inferInstanceAs (Decidable (x.Informed e ∧ (x.use e).Careful rest))

theorem careful_append {before after : List Use} :
    x.Careful (before ++ after) ↔ x.Careful before ∧ (x.useAll before).Careful after := by
  induction before generalizing x with
  | nil => simp [Careful, useAll]
  | cons e rest ih =>
    rw [List.cons_append, Careful, Careful, ih, and_assoc]
    rfl

/-! ## Guarded rows -/

/-- The locks of rows that were read are held, these rows are as they were read, and no other rows are
written. -/
structure Guarded (x : Usage) : Prop where
  sound : x.store.Sound
  queued : x.store.Queued []
  begun : ∀ u id r, x.version u id = some r → u.value < x.store.opened
  held : ∀ u id r, x.version u id = some r → x.store.IsOpen u → id ∈ (x.store.unit u).held
  current : ∀ u id r, x.version u id = some r → x.store.IsOpen u →
    r = foundOr "account" (findRow id x.store.rows)
  read : ∀ u, ∀ a ∈ (x.store.unit u).rows, ∃ r, x.version u a.id = some r

namespace Guarded

theorem fresh (rows : List Account) (entries : List Entry) (lastKey : Nat) :
    (Usage.fresh rows entries lastKey).Guarded where
  sound := sound_fresh rows entries lastKey
  queued := queued_fresh rows entries lastKey
  begun _ _ _ h := by cases h
  held _ _ _ h := by cases h
  current _ _ _ h := by cases h
  read _ _ h := absurd h List.not_mem_nil

theorem of_still (h : x.Guarded) {s' : Store} (hsound : s'.Sound) (hqueued : s'.Queued [])
    (hopened : s'.opened = x.store.opened) (hrows : s'.rows = x.store.rows)
    (hopen : ∀ v, s'.IsOpen v → x.store.IsOpen v)
    (hwritten : ∀ v, s'.IsOpen v → (s'.unit v).rows = (x.store.unit v).rows)
    (hheld : ∀ v, s'.IsOpen v → ∀ id ∈ (x.store.unit v).held, ∀ r, x.version v id = some r →
      id ∈ (s'.unit v).held) :
    Guarded { x with store := s' } where
  sound := hsound
  queued := hqueued
  begun u id r hu := hopened ▸ h.begun u id r hu
  held u id r hu ho := hheld u ho id (h.held u id r hu (hopen u ho)) r hu
  current u id r hu ho := hrows ▸ h.current u id r hu (hopen u ho)
  read u a ha := by
    by_cases ho : s'.IsOpen u
    · exact h.read u a (hwritten u ho ▸ ha)
    · rw [Store.unit_of_not_isOpen ho] at ha
      cases ha

theorem held_of_written (h : x.Guarded) (ho : x.store.IsOpen u) {a : Account}
    (ha : a ∈ (x.store.unit u).rows) : a.id ∈ (x.store.unit u).held := by
  obtain ⟨r, hr⟩ := h.read u a ha
  exact h.held u a.id r hr ho

theorem isOpen_of_replied (h : x.Guarded) {c : Call} {r : c.Reply} {s' : Store}
    (hr : x.store.respond c = .replied r s') {r' : Except StoreError Account}
    (hu : x.version u id = some r') (ho : s'.IsOpen u) : x.store.IsOpen u := by
  refine (Store.notEnded_of_isOpen hr ho).resolve_right ?_
  exact Nat.not_le.mpr (h.begun u id r' hu)

/-- No commit reaches a row whose lock an other unit of work holds. -/
theorem findRow_of_replied (h : x.Guarded) {c : Call} {r : c.Reply} {s' : Store}
    (hopen : ∀ u, c.unit? = some u → x.store.IsOpen u) (hr : x.store.respond c = .replied r s')
    (hid : id ∈ (x.store.unit v).held) (ho : s'.IsOpen v) :
    findRow id s'.rows = findRow id x.store.rows := by
  refine Store.findRow_of_replied hr ?_
  rintro u rfl a ha rfl
  -- who commits a row holds the lock of it, so it would be the same unit of work
  have hheld := h.held_of_written (hopen u rfl) ha
  have huv : u = v := h.sound.exclusive u v a.id hheld hid
  subst huv
  have hclosed : ¬s'.IsOpen u := by
    cases hr
    rcases x.store.commit_cases u with ⟨-, he⟩ | he <;> rw [he] <;>
      exact fun ho => (Store.isOpen_close.mp ho).1 rfl
  exact hclosed ho

theorem locked (h : x.Guarded) {r : (Call.lockAccount u id).Reply} {s' : Store}
    (ho : x.store.IsOpen u) (hr : x.store.respond (.lockAccount u id) = .replied r s')
    (hnew : x.version u id = none) :
    id ∈ (s'.unit u).held ∧ r = foundOr "account" (findRow id s'.rows) := by
  obtain ⟨hread, hstore⟩ := Store.lock_replied hr
  -- a row that the unit of work has written itself would have been read before
  have hnone : findRow id (x.store.unit u).rows = none := by
    rw [findRow, List.find?_eq_none]
    intro a ha he
    rw [decide_eq_true_eq] at he
    obtain ⟨r', hr'⟩ := h.read u a ha
    rw [he, hnew] at hr'
    cases hr'
  rw [Store.rowIn, hnone, Option.none_or] at hread
  rcases hstore with ⟨hheld, rfl⟩ | ⟨-, rfl⟩
  · exact ⟨hheld, hread⟩
  · rw [Store.giveLock, Store.unit_setUnit_self ho]
    exact ⟨List.mem_cons_self, hread⟩

theorem firstRead (h : x.Guarded) {c : Call} {r : c.Reply} {s' : Store}
    (hopen : ∀ u, c.unit? = some u → x.store.IsOpen u) (hr : x.store.respond c = .replied r s')
    {landed : List (UnitId × WorkUnit)} {r' : Except StoreError Account}
    (hold : x.version u id = none)
    (hu : version ⟨s', x.history ++ [.replied c r], landed⟩ u id = some r') :
    x.store.IsOpen u ∧ id ∈ (s'.unit u).held ∧ r' = foundOr "account" (findRow id s'.rows) := by
  rw [version_concat, hold, Option.none_or] at hu
  cases c with
  | lockAccount v y =>
    simp only [Observation.lockedRead?] at hu
    split at hu
    · rename_i hvy
      obtain ⟨rfl, rfl⟩ := hvy
      cases hu
      exact ⟨hopen v rfl, h.locked (hopen v rfl) hr hold⟩
    · cases hu
  | _ => cases hu

theorem reply (h : x.Guarded) {c : Call} {r : c.Reply} {s' : Store}
    (hopen : ∀ u, c.unit? = some u → x.store.IsOpen u) (hr : x.store.respond c = .replied r s')
    (hcareful : ∀ u a, c = .upsertAccount u a → x.version u a.id ≠ none)
    (landed : List (UnitId × WorkUnit)) :
    Guarded ⟨s', x.history ++ [.replied c r], landed⟩ := by
  have hsound := (Store.Told.answered hr).sound h.sound
  refine ⟨hsound, (Store.Told.answered hr).queued h.queued, ?_, ?_, ?_, ?_⟩
  · intro u id r' hu
    refine Nat.lt_of_lt_of_le ?_ (Store.opened_le_of_replied hr)
    cases hold : x.version u id with
    | some r'' => exact h.begun u id r'' hold
    | none => exact h.sound.lt_opened u (h.firstRead hopen hr hold hu).1
  · intro u id r' hu ho
    cases hold : x.version u id with
    | some r'' =>
      have hbefore := h.isOpen_of_replied hr hold ho
      exact Store.held_of_replied hr ho (h.held u id r'' hold hbefore)
    | none => exact (h.firstRead hopen hr hold hu).2.1
  · intro u id r' hu ho
    cases hold : x.version u id with
    | some r'' =>
      have hbefore := h.isOpen_of_replied hr hold ho
      cases hu.symm.trans (version_concat_of_some hold _ _ _)
      rw [h.findRow_of_replied hopen hr (h.held u id r' hold hbefore) ho]
      exact h.current u id r' hold hbefore
    | none => exact (h.firstRead hopen hr hold hu).2.2
  · intro u a ha
    by_cases ho : s'.IsOpen u
    · have hread : ∃ r', x.version u a.id = some r' := by
        rcases Store.mem_rows_of_replied hr ho ha with ha | rfl
        · exact h.read u a ha
        · exact Option.ne_none_iff_exists'.mp (hcareful u a rfl)
      obtain ⟨r', hr'⟩ := hread
      exact ⟨r', version_concat_of_some hr' _ _ _⟩
    · rw [Store.unit_of_not_isOpen ho] at ha
      cases ha

theorem use (h : x.Guarded) {e : Use} (hinformed : x.Informed e) : (x.use e).Guarded := by
  have hsound := sound_use h.sound e
  have hqueued := queued_use h.sound h.queued e
  rcases x.use_cases e with ⟨a, rfl, he⟩ | ⟨u, id, -, hlet, he⟩ | he <;>
    rw [he] at hsound hqueued ⊢
  · rcases x.step_cases a with ⟨waiting, he⟩ | ⟨u, -, he⟩ | ⟨c, r, s', rfl, hopen, hr, he⟩ <;>
      rw [he] at hsound hqueued ⊢
    · exact h.of_still hsound hqueued rfl rfl (fun _ => id) (fun _ _ => rfl) fun _ _ _ hid _ _ => hid
    · refine h.of_still hsound hqueued (Store.opened_close _ _) (Store.rows_close _ _)
        (fun v ho => (Store.isOpen_close.mp ho).2) (fun v ho => (Store.written_of_close ho).2) ?_
      intro v ho id hid _ _
      exact (Store.Keeps.close (Store.isOpen_close.mp ho).1).held hid
    · refine h.reply hopen hr (fun u b hc => ?_) _
      subst hc
      exact hinformed (hopen u rfl)
  · refine h.of_still hsound hqueued (Store.opened_release _ u id) (Store.rows_release _ u id)
      (fun v => Store.isOpen_release.mp) (fun v _ => (Store.written_release _ u id v).1) ?_
    -- what is let go was not read
    intro v _ y hy r hr
    refine Store.mem_held_release hy ?_
    rw [← not_and_or]
    rintro ⟨rfl, rfl⟩
    cases hlet.2.symm.trans hr
  · exact h

theorem useAll (h : x.Guarded) {uses : List Use} (hcareful : x.Careful uses) :
    (x.useAll uses).Guarded := by
  induction uses generalizing x with
  | nil => exact h
  | cons e rest ih => exact ih (h.use hcareful.1) hcareful.2

end Guarded

/-! ## Units of work that have ended -/

theorem notEnded_of_use {e : Use} (h : (x.use e).store.NotEnded u) : x.store.NotEnded u := by
  rcases x.use_cases e with ⟨a, -, he⟩ | ⟨v, id, -, -, he⟩ | he <;> rw [he] at h
  · rcases x.step_cases a with ⟨waiting, he⟩ | ⟨v, -, he⟩ | ⟨c, r, s', -, -, hr, he⟩ <;> rw [he] at h
    · exact h
    · exact h.of_close
    · exact h.of_replied hr
  · rcases h with h | h
    · exact .inl (Store.isOpen_release.mp h)
    · exact .inr (Store.opened_release x.store v id ▸ h)
  · exact h

theorem notEnded_of_useAll {uses : List Use} (h : (x.useAll uses).store.NotEnded u) :
    x.store.NotEnded u := by
  induction uses using List.reverseRecOn with
  | nil => exact h
  | append_singleton uses e ih =>
    rw [useAll_concat] at h
    exact ih (notEnded_of_use h)

theorem foundOr_injective {α : Type} {what : String} {a b : Option α}
    (h : foundOr what a = foundOr what b) : a = b := by
  cases a <;> cases b <;> cases h <;> rfl

theorem Guarded.commit (h : x.Guarded) (ho : x.store.IsOpen u) {s' : Store}
    (hr : x.store.respond (.commit u) = .replied (.ok ()) s') (id : AccountId) :
    findRow id s'.rows = (findRow id (x.store.unit u).rows).or (findRow id x.store.rows) ∧
      (findRow id (x.store.unit u).rows ≠ none →
        x.version u id = some (foundOr "account" (findRow id x.store.rows))) := by
  constructor
  · obtain ⟨-, rfl⟩ := (Store.Told.answered hr).commit
    rw [Store.rows_close, Store.merge, Store.findRow_foldr_putRow]
  · intro hwritten
    obtain ⟨a, ha⟩ := Option.ne_none_iff_exists'.mp hwritten
    have hid : a.id = id := findRow_id ha
    obtain ⟨r, hr⟩ := h.read u a (List.mem_of_find?_eq_some ha)
    rw [hid] at hr
    rw [hr, h.current u id r hr ho]

/-- Units of work use a store in any order, and each writes only rows that it has read under their locks.
At any time a lock is held by one unit at most, which is open. A unit that commits, with success or not,
is rolled back or dropped is open no longer, also if it waits for a lock just then; each of its locks is
held by the one unit afterwards that waits longest for it, if there is any, and so is a lock whose wait
was given up. A unit that has ended stays so, holds nothing and waits for nothing. A lock that is held is
never waited for by its holder. From the first time that a unit has read a row under its lock until it
ends this row, or that there is none, stays committed; so its commit replaces just the rows it has read
by those it has written. -/
theorem no_lost_update (rows : List Account) (entries : List Entry) (lastKey : Nat)
    (before after : List Use) (hcareful : (fresh rows entries lastKey).Careful (before ++ after)) :
    let x := (fresh rows entries lastKey).useAll before
    let y := x.useAll after
    (∀ u v id, id ∈ (y.store.unit u).held → id ∈ (y.store.unit v).held → u = v ∧ y.store.IsOpen u) ∧
    (∀ u e, y.store.IsOpen u → e.Ends u → ¬(y.use e).store.IsOpen u ∧
      ∀ id ∈ (y.store.unit u).held, ∀ v,
        id ∈ ((y.use e).store.unit v).held ↔ y.store.heir id = some v) ∧
    (∀ u id, y.Unnoticed u id → ∀ v,
      id ∈ ((y.use (.letGo u id)).store.unit v).held ↔ y.store.heir id = some v) ∧
    (∀ u, u.value < x.store.opened → ¬x.store.IsOpen u →
      ¬y.store.IsOpen u ∧ (y.store.unit u).held = [] ∧ ∀ id, (u, id) ∉ y.store.waiting) ∧
    (∀ u id, id ∈ (y.store.unit u).held →
      y.store.respond (.lockAccount u id) =
        .replied (foundOr "account" (y.store.rowIn u id)) y.store) ∧
    (∀ u id r, x.version u id = some r → y.store.IsOpen u →
      y.version u id = some r ∧ id ∈ (y.store.unit u).held ∧
      r = foundOr "account" (findRow id y.store.rows) ∧
      findRow id y.store.rows = findRow id x.store.rows) ∧
    ∀ u s', y.store.IsOpen u → y.store.respond (.commit u) = .replied (.ok ()) s' → ∀ id,
      findRow id s'.rows = (findRow id (y.store.unit u).rows).or (findRow id y.store.rows) ∧
      (findRow id (y.store.unit u).rows ≠ none →
        y.version u id = some (foundOr "account" (findRow id y.store.rows))) := by
  intro x y
  obtain ⟨hbefore, hafter⟩ := careful_append.mp hcareful
  have hx : x.Guarded := (Guarded.fresh rows entries lastKey).useAll hbefore
  have hy : y.Guarded := hx.useAll hafter
  refine ⟨?_, ?_, ?_, ?_, ?_, ?_, ?_⟩
  · intro u v id hu hv
    exact ⟨hy.sound.exclusive u v id hu hv, Store.isOpen_of_mem_held hu⟩
  · intro u e ho hends
    exact ⟨not_isOpen_of_ends ho hends, fun id hid v => mem_held_of_ends hy.sound hy.queued hends hid⟩
  · intro u id hlet v
    simp only [use, if_pos hlet]
    exact Store.mem_held_release_iff hy.sound hy.queued hlet.1
  · intro u hlt hclosed
    have hended : ¬y.store.IsOpen u := fun ho =>
      (notEnded_of_useAll (.inl ho)).elim hclosed (Nat.not_le.mpr hlt)
    refine ⟨hended, by rw [Store.unit_of_not_isOpen hended], fun id hid => ?_⟩
    exact hended (hy.queued.isOpen u id hid)
  · intro u id hid
    exact if_pos hid
  · intro u id r hr ho
    have hr' : y.version u id = some r := version_useAll hr after
    have hopen : x.store.IsOpen u := by
      refine (notEnded_of_useAll (.inl ho)).resolve_right (Nat.not_le.mpr ?_)
      exact hx.begun u id r hr
    have hcurrent := hy.current u id r hr' ho
    exact ⟨hr', hy.held u id r hr' ho, hcurrent,
      foundOr_injective (hcurrent.symm.trans (hx.current u id r hr hopen))⟩
  · intro u s' ho hr id
    exact hy.commit ho hr id

/-- Two units of work want the row of an account that is not there yet. The second waits until the first
has committed it. -/
def contending : List Use :=
  [.access (.call .openUnit), .access (.call .openUnit),
    .access (.call (.lockAccount ⟨0⟩ System.idA)), .access (.call (.lockAccount ⟨1⟩ System.idA)),
    .access (.call (.upsertAccount ⟨0⟩ (.opened System.idA System.ten System.epoch))),
    .access (.call (.commit ⟨0⟩)), .access (.call (.lockAccount ⟨1⟩ System.idA))]

def overwriting : List Use :=
  [.access (.call (.upsertAccount ⟨1⟩ (.opened System.idA System.tenth System.epoch)))]

theorem no_lost_update_contending :
    (fresh [] [] 0).Careful (contending ++ overwriting) ∧
    (((fresh [] [] 0).useAll contending).useAll overwriting).store.IsOpen ⟨1⟩ ∧
    (((fresh [] [] 0).useAll contending).useAll overwriting).version ⟨1⟩ System.idA =
      some (foundOr "account" (findRow System.idA
        (((fresh [] [] 0).useAll contending).useAll overwriting).store.rows)) := by
  have hcareful : (fresh [] [] 0).Careful (contending ++ overwriting) := by decide
  obtain ⟨-, -, -, -, -, -, hreplaced⟩ := no_lost_update [] [] 0 contending overwriting hcareful
  generalize hy : ((fresh [] [] 0).useAll contending).useAll overwriting = y at hreplaced ⊢
  have hopen : y.store.IsOpen ⟨1⟩ := by
    subst hy
    decide
  have hcommittable : y.store.Committable (y.store.unit ⟨1⟩) := by
    subst hy
    decide
  have hwritten : findRow System.idA (y.store.unit ⟨1⟩).rows ≠ none := by
    subst hy
    decide
  have hcommit : y.store.respond (.commit ⟨1⟩) = .replied (.ok ()) (y.store.commit ⟨1⟩).2 := by
    simp only [Store.respond, Store.commit, if_pos hcommittable]
  exact ⟨hcareful, hopen, (hreplaced ⟨1⟩ _ hopen hcommit System.idA).2 hwritten⟩

end Usage

end Bookkeeping
