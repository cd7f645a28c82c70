import Bookkeeping.Proofs.Resemblance
import Bookkeeping.Proofs.Sequences

/-! # One command, call by call

A command by itself is run on until it has ended or its time is up. What each of its calls and readings
preserves holds at its end. In this way the keys of what it adds ascend, whatever goes wrong on the way;
and if its transaction is recorded already it does not succeed, unless the store denies what is recorded.
-/
namespace Bookkeeping
open Bookkeeping.Time

/-! ## From steps to runs -/

/-- Every reading, reply and wait of a program preserves what holds of it and of the store. -/
structure Stepwise (P : Suspended (Except Failure Answer) → Backend → Prop) : Prop where
  read : ∀ {next phase u b}, P ⟨.clock next, phase, u⟩ b → ∀ t, P ⟨next t, .fresh, u⟩ b
  replied : ∀ {c : Call} {next phase u b now r b'}, P ⟨.call c next, phase, u⟩ b →
    b.attempt now c phase = .replied r b' → P ⟨next r, .fresh, unitAfter u c r⟩ b'
  waits : ∀ {c : Call} {next phase u b now phase' b'}, P ⟨.call c next, phase, u⟩ b →
    b.attempt now c phase = .suspended phase' b' → P ⟨.call c next, phase', u⟩ b'

def Ended (P : Suspended (Except Failure Answer) → Backend → Prop) (o : Outcome) (b : Backend) : Prop :=
  ∃ sus b', P sus b' ∧ b = b'.dropUnit sus.unit ∧
    ∀ answer, o = .answered answer → sus.program = .done (.ok answer)

def Job.Upholds (P : Suspended (Except Failure Answer) → Backend → Prop) (settings : Settings)
    (j : Job) (b : Backend) : Prop :=
  match j.state with
  | .pending => P ⟨j.command.program settings, .fresh, none⟩ b
  | .running sus _ => P sus b
  | .ended o => Ended P o b

namespace Stepwise

variable {P : Suspended (Except Failure Answer) → Backend → Prop} {settings : Settings}

theorem advance (h : Stepwise P) (now : Duration) {p : Program (Except Failure Answer)}
    {phase : Backend.Phase} {u : Option UnitId} {w : World} (hp : P ⟨p, phase, u⟩ w.backend) :
    (∃ r w' phase' u' b, p.advance now phase u w = (.finished r, w') ∧
      P ⟨.done r, phase', u'⟩ b ∧ w'.backend = b.dropUnit u') ∨
    ∃ sus w', p.advance now phase u w = (.suspended sus, w') ∧ P sus w'.backend := by
  induction p generalizing phase u w with
  | done r => exact .inl ⟨r, _, phase, u, w.backend, rfl, hp, w.backend_dropUnit u⟩
  | clock next ih => exact ih w.clock.read.1 (w := { w with clock := w.clock.read.2 }) (h.read hp _)
  | call c next ih =>
    rw [Program.advance]
    cases hattempt : w.backend.attempt now c phase with
    | suspended phase' b => exact .inr ⟨_, _, rfl, h.waits hp hattempt⟩
    | replied r b => exact ih r (w := { w with backend := b }) (h.replied hp hattempt)

theorem go (h : Stepwise P) (now deadline : Duration) {sus : Suspended (Except Failure Answer)}
    {j : Job} {w : World} (hp : P sus w.backend) :
    (j.go settings now deadline sus w).1.Upholds P settings
      (j.go settings now deadline sus w).2.backend := by
  unfold Job.go
  rcases h.advance now (p := sus.program) hp with
    ⟨r, w', phase, u, b, he, hend, hb⟩ | ⟨sus', w', he, hnext⟩ <;> simp only [he]
  · refine ⟨⟨.done r, phase, u⟩, b, hend, hb, fun answer ho => ?_⟩
    cases r with
    | ok a =>
      cases ho
      rfl
    | error why => cases ho
  · split
    · exact ⟨sus', w'.backend, hnext, w'.backend_dropUnit sus'.unit, fun _ ho => by cases ho⟩
    · exact hnext

theorem upholds_advance (h : Stepwise P) (now : Duration) {j : Job} {w : World}
    (hj : j.Upholds P settings w.backend) :
    (j.advance settings now w).1.Upholds P settings (j.advance settings now w).2.backend := by
  unfold Job.Upholds at hj
  cases hstate : j.state with
  | ended o =>
    rw [Job.advance_ended hstate, Job.Upholds]
    rwa [hstate] at hj ⊢
  | running sus deadline =>
    rw [hstate] at hj
    rw [Job.advance_running hstate]
    exact h.go now deadline hj
  | pending =>
    rw [hstate] at hj
    unfold Job.advance
    simp only [hstate]
    split
    · exact h.go now _ hj
    · rw [Job.Upholds, hstate]
      exact hj

theorem upholds_loop (h : Stepwise P) (fuel : Nat) (now : Duration) {j : Job} {w : World}
    (hj : j.Upholds P settings w.backend) {j' : Job} {w' : World}
    (hloop : Schedule.loop settings fuel now [j] w = ([j'], w')) :
    j'.Upholds P settings w'.backend := by
  induction fuel generalizing now j w with
  | zero =>
    cases hloop
    exact h.upholds_advance _ (h.upholds_advance _ hj)
  | succ fuel ih =>
    rw [Schedule.loop] at hloop
    split at hloop
    · rw [Schedule.pass_singleton] at hloop
      exact ih now (h.upholds_advance now hj) hloop
    · split at hloop
      · cases hloop
        exact hj
      · exact ih _ hj hloop

theorem serve (h : Stepwise P) {b : Backend} {v : Visit}
    (hstart : P ⟨v.command.program v.settings, .fresh, none⟩ b) :
    ∃ o, (b.serve v).1 = some o ∧ Ended P o (b.serve v).2 := by
  obtain ⟨j, w, o, hloop, hended⟩ := Schedule.loop_singleton v.settings
    (Schedule.fuel [.ofCommand v.command ⟨0⟩]) ⟨0⟩ (.ofCommand v.command ⟨0⟩) ⟨b, v.clock⟩
  have hserve : b.serve v = (some o, w.backend) := by
    simp [Backend.serve, Schedule.single, Schedule.outcomes, Schedule.run, hloop, Job.outcome?, hended]
  have hpending : (Job.ofCommand v.command ⟨0⟩).Upholds P v.settings b := hstart
  have hend := h.upholds_loop (w := ⟨b, v.clock⟩) _ _ hpending hloop
  rw [Job.Upholds, hended] at hend
  rw [hserve]
  exact ⟨o, rfl, hend⟩

end Stepwise

/-! ## Keys of what a command adds -/

namespace Store

variable {s s' : Store} {u v : UnitId}

/-- The keys of what each open unit of work has written ascend. -/
def Ordered (s : Store) : Prop := ∀ u, Ascends (s.unit u).entries s.lastKey

theorem Ordered.of_entries (h : s.Ordered) (hkey : s.lastKey ≤ s'.lastKey)
    (hentries : ∀ u, (s'.unit u).entries = (s.unit u).entries ∨ (s'.unit u).entries = []) :
    s'.Ordered := by
  intro u
  rcases hentries u with he | he <;> rw [he]
  · exact (h u).mono (List.Sublist.refl _) hkey
  · exact .nil _

theorem entries_unit_close (s : Store) (u v : UnitId) :
    ((s.close u).unit v).entries = (s.unit v).entries ∨ ((s.close u).unit v).entries = [] := by
  by_cases ho : (s.close u).IsOpen v
  · exact .inl (Keeps.close (isOpen_close.mp ho).1).entries
  · exact .inr (by rw [unit_of_not_isOpen ho])

theorem Ordered.close (h : s.Ordered) (u : UnitId) : (s.close u).Ordered :=
  h.of_entries (Nat.le_of_eq (lastKey_close s u).symm) (s.entries_unit_close u)

theorem Ordered.append (h : s.Ordered) (u : UnitId) (drafts : List Draft) :
    (s.append u drafts).2.Ordered := by
  have hle := (exists_stage (s.isFree u) s.lastKey [] drafts).1
  unfold Store.append
  split
  · rename_i new key hstage
    rw [hstage] at hle
    intro v
    rw [unit_setUnit]
    split
    · have hunit : Ascends ((s.unit u).entries ++ []) s.lastKey := by
        rw [List.append_nil]
        exact h u
      exact hunit.stage hstage
    · exact (h v).mono (List.Sublist.refl _) hle
  · rename_i key hstage
    rw [hstage] at hle
    exact h.of_entries hle fun _ => .inl rfl

theorem Told.ordered {c : Call} {r : c.Reply} (ht : s.Told c r s') (h : s.Ordered) : s'.Ordered := by
  cases ht with
  | answered hr =>
    cases c with
    | openUnit =>
      cases hr
      exact h.of_entries (Nat.le_refl _) fun v => .inl (by rw [unit_openUnit])
    | lockAccount u id =>
      rcases (lock_replied hr).2 with ⟨-, rfl⟩ | ⟨-, rfl⟩
      · exact h
      · exact h.of_entries (Nat.le_refl _) fun v => .inl (Keeps.giveLock s u id v).entries
    | upsertAccount u a =>
      cases hr
      exact h.of_entries (Nat.le_refl _) fun v => .inl (unit_setUnit_congr WorkUnit.entries rfl)
    | append u drafts =>
      cases hr
      exact h.append u drafts
    | commit u =>
      cases hr
      rcases s.commit_cases u with ⟨-, he⟩ | he <;> rw [he]
      · have hmerge : (s.merge (s.unit u)).Ordered := h
        exact hmerge.close u
      · exact h.close u
    | rollback u =>
      cases hr
      exact h.close u
    | _ =>
      cases hr
      exact h
  | refused c e => cases c <;> first | exact h | exact h.close _
  | overlooked t => exact h
  | overlookedIn u t => exact h

theorem Ready.ordered (h : s.Ready) : s.Ordered := by
  intro u
  rw [h.unit_eq]
  exact .nil _

end Store

/-- A program conducts itself well, and what is committed is as at first, or with entries in the order
of their keys once the program has committed. -/
def Adds (settings : Settings) (command : Command) (before : List Entry)
    (sus : Suspended (Except Failure Answer)) (b : Backend) : Prop :=
  b.store.Ordered ∧ ∃ k, sus.program.Obeys .conduct (command.Ends settings) k ∧
    ((k.ending ≠ some .committed ∧ b.store.entries = before) ∨
      (k.ending = some .committed ∧ ∃ new key, Ascends new key ∧ b.store.entries = before ++ new))

theorem stepwise_adds (settings : Settings) (command : Command) (before : List Entry) :
    Stepwise (Adds settings command before) where
  read := by
    rintro next phase u b ⟨hordered, k, hruns, hbefore⟩ t
    refine ⟨hordered, _, hruns.2 t, ?_⟩
    exact hbefore
  waits := by
    rintro c next phase u b now phase' b' ⟨hordered, k, hruns, hbefore⟩ hattempt
    obtain ⟨waiting, hb⟩ := Backend.attempt_suspended hattempt
    rw [Adds, hb]
    exact ⟨hordered, k, hruns, hbefore⟩
  replied := by
    rintro c next phase u b now r b' ⟨hordered, k, ⟨hpermits, hruns⟩, hbefore⟩ hattempt
    have ht := Backend.attempt_replied hattempt
    have hactive := hpermits.1
    have hsame : b.store.entries = before := by
      rcases hbefore with ⟨-, hsame⟩ | ⟨hend, -⟩
      · exact hsame
      · rw [hactive] at hend
        cases hend
    refine ⟨ht.ordered hordered, _, hruns r, ?_⟩
    have hcommits := Knowledge.ending_tell hactive (.replied c r)
    cases hc : (Observation.replied c r).isCommit with
    | false =>
      refine .inl ⟨?_, (ht.same hc).2.trans hsame⟩
      rw [Ne, hcommits, hc]
      exact Bool.false_ne_true
    | true =>
      refine .inr ⟨hcommits.mpr hc, ?_⟩
      cases c with
      | commit v =>
        cases r with
        | ok a =>
          refine ⟨(b.store.unit v).entries, b.store.lastKey, hordered v, ?_⟩
          rw [ht.commit.2, Store.entries_close, ← hsame]
          rfl
        | error e => cases hc
      | _ => cases hc

theorem Backend.serve_ascends {b : Backend} (h : b.store.Ready) (v : Visit) :
    ∃ new key, Ascends new key ∧ (b.serve v).2.store.entries = b.store.entries ++ new := by
  have hstart : Adds v.settings v.command b.store.entries
      ⟨v.command.program v.settings, .fresh, none⟩ b :=
    ⟨h.ordered, _, v.command.runs_program v.settings, .inl ⟨by simp, rfl⟩⟩
  obtain ⟨o, -, sus, b', ⟨-, k, -, hentries⟩, hb, -⟩ :=
    (stepwise_adds v.settings v.command b.store.entries).serve hstart
  rw [hb, Store.entries_dropUnit]
  rcases hentries with ⟨-, he⟩ | ⟨-, hnew⟩
  · exact ⟨[], 0, .nil 0, by rw [he, List.append_nil]⟩
  · exact hnew

/-! ## Stores that do not deny what is recorded -/

namespace Faults

variable {op : Operation} {l : List Injection} {f : Faults}

/-- A lookup of a transaction may fail, but not in a way that means that nothing is recorded. Operations
that fail until they are healed, and delays, are of no concern here. -/
def Honest (f : Faults) : Prop :=
  ∀ i ∈ f.injections, i.operation = .findByTransaction →
    ∃ e, i.effect = .fails e ∧ e.isNotFound = false

theorem mem_meet {i : Injection} (h : i ∈ (meet op l).2) :
    ∃ i' ∈ l, i'.operation = i.operation ∧ i'.effect = i.effect := by
  induction l with
  | nil => cases h
  | cons x rest ih =>
    rw [meet] at h
    split at h
    · split at h <;> rcases List.mem_cons.mp h with rfl | h
      · exact ⟨x, List.mem_cons_self, rfl, rfl⟩
      · exact ⟨i, List.mem_cons_of_mem _ h, rfl, rfl⟩
      · exact ⟨x, List.mem_cons_self, rfl, rfl⟩
      · exact ⟨i, List.mem_cons_of_mem _ h, rfl, rfl⟩
    · rcases List.mem_cons.mp h with rfl | h
      · exact ⟨i, List.mem_cons_self, rfl, rfl⟩
      · obtain ⟨i', hi', hsame⟩ := ih h
        exact ⟨i', List.mem_cons_of_mem _ hi', hsame⟩

theorem effect_meet {e : Effect} (h : (meet op l).1 = some e) :
    ∃ i ∈ l, i.operation = op ∧ i.effect = e := by
  induction l with
  | nil => cases h
  | cons x rest ih =>
    rw [meet] at h
    split at h
    · rename_i hx
      split at h
      · cases h
      · cases h
        exact ⟨x, List.mem_cons_self, hx.1, rfl⟩
    · obtain ⟨i, hi, hsame⟩ := ih h
      exact ⟨i, List.mem_cons_of_mem _ hi, hsame⟩

theorem Honest.meet (h : f.Honest) (op : Operation) :
    Honest { f with injections := (Faults.meet op f.injections).2 } := by
  intro i hi hop
  obtain ⟨i', hi', hoperation, heffect⟩ := mem_meet hi
  obtain ⟨e, he, hnot⟩ := h i' hi' (hoperation.trans hop)
  exact ⟨e, heffect.symm.trans he, hnot⟩

end Faults

namespace Backend

variable {b b' : Backend} {c : Call} {now : Duration} {phase phase' : Phase}

theorem faults_enter (b : Backend) (c : Call) : (b.enter c).backend.faults = b.faults := by
  unfold enter
  split
  · rfl
  · split <;> rfl

theorem faults_enterAt (b : Backend) (now wake : Duration) (c : Call) :
    (b.enterAt now wake c).backend.faults = b.faults := by
  unfold enterAt
  split
  · exact b.faults_enter c
  · rfl

theorem faults_attempt_cases (b : Backend) (now : Duration) (c : Call) (phase : Phase) :
    (b.attempt now c phase).backend.faults = b.faults ∨
      (b.attempt now c phase).backend.faults =
        { b.faults with injections := (Faults.meet c.operation b.faults.injections).2 } := by
  cases phase with
  | fresh =>
    refine .inr ?_
    rw [attempt]
    simp only
    split
    · cases c <;> rfl
    · rename_i hnone
      rcases start_eq { b with faults := { b.faults with
        injections := (Faults.meet c.operation b.faults.injections).2 } } now c with he | ⟨wake, he⟩
      · rw [he, faults_enter]
      · rw [he, faults_enterAt]
  | asleep wake => exact .inl (b.faults_enterAt now wake c)
  | entered =>
    rw [attempt]
    split <;> exact .inl rfl

theorem honest_attempt (h : b.faults.Honest) (now : Duration) (c : Call) (phase : Phase) :
    (b.attempt now c phase).backend.faults.Honest := by
  rcases b.faults_attempt_cases now c phase with he | he <;> rw [he]
  · exact h
  · exact h.meet c.operation

theorem honest_replied (h : b.faults.Honest) {r : c.Reply}
    (hattempt : b.attempt now c phase = .replied r b') : b'.faults.Honest := by
  have hafter := honest_attempt h now c phase
  rwa [hattempt] at hafter

theorem honest_suspended (h : b.faults.Honest)
    (hattempt : b.attempt now c phase = .suspended phase' b') : b'.faults.Honest := by
  have hafter := honest_attempt h now c phase
  rwa [hattempt] at hafter

theorem honest_serve (h : b.faults.Honest) (v : Visit) : (b.serve v).2.faults.Honest := by
  have hsteps : Stepwise fun _ b => b.faults.Honest :=
    ⟨fun hf _ => hf, fun hf h => honest_replied hf h, fun hf h => honest_suspended hf h⟩
  obtain ⟨-, -, sus, b', hf, hb, -⟩ := hsteps.serve (v := v) h
  rw [hb]
  cases sus.unit <;> exact hf

theorem enter_findByTransaction {t : TransactionId} {r : (Call.findByTransaction t).Reply}
    (h : b.enter (.findByTransaction t) = .replied r b') :
    (∃ e, r = .error e ∧ e.isNotFound = false) ∨ r = .ok (entriesOf t b.store.entries) := by
  unfold enter at h
  split at h
  · cases h
    exact .inl ⟨_, rfl, rfl⟩
  · cases h
    exact .inr rfl

/-- A store that is honest finds the entries of a transaction, or fails in a way that says so. -/
theorem attempt_findByTransaction (hf : b.faults.Honest) {t : TransactionId}
    {r : (Call.findByTransaction t).Reply}
    (h : b.attempt now (.findByTransaction t) phase = .replied r b') :
    (∃ e, r = .error e ∧ e.isNotFound = false) ∨ r = .ok (entriesOf t b.store.entries) := by
  cases phase with
  | fresh =>
    rw [attempt] at h
    simp only at h
    split at h
    · rename_i reply heq
      cases h
      obtain ⟨effect, hmeet, hreply⟩ := Option.bind_eq_some_iff.mp heq
      obtain ⟨i, hi, hop, rfl⟩ := Faults.effect_meet hmeet
      obtain ⟨e, he, hnot⟩ := hf i hi hop
      rw [he] at hreply
      cases hreply
      exact .inl ⟨e, rfl, hnot⟩
    · have hstart : Backend.enter { b with faults := { b.faults with
          injections := (Faults.meet (Call.findByTransaction t).operation b.faults.injections).2 } }
          (.findByTransaction t) = .replied r b' := h
      have hfound := enter_findByTransaction hstart
      exact hfound
  | asleep wake =>
    rw [attempt, enterAt] at h
    split at h
    · exact enter_findByTransaction h
    · cases h
  | entered =>
    cases h
    exact .inr rfl

end Backend

/-- The transaction of a command is recorded, and the command has not come past its first lookup. -/
def Barred (settings : Settings) (command : Command) (t : TransactionId)
    (sus : Suspended (Except Failure Answer)) (b : Backend) : Prop :=
  b.faults.Honest ∧ b.store.book.Records t ∧
    ∃ k, sus.program.Obeys .conduct (command.Ends settings) k ∧ k.transaction = some t ∧
      k.searched = false ∧ k.unit = none ∧ k.ending ≠ some .committed

theorem stepwise_barred (settings : Settings) (command : Command) (t : TransactionId) :
    Stepwise (Barred settings command t) where
  read := by
    rintro next phase u b ⟨hhonest, hrecords, k, hruns, hk⟩ now
    exact ⟨hhonest, hrecords, _, hruns.2 now, hk⟩
  waits := by
    rintro c next phase u b now phase' b' ⟨hhonest, hrecords, hk⟩ hattempt
    obtain ⟨waiting, hb⟩ := Backend.attempt_suspended hattempt
    refine ⟨Backend.honest_suspended hhonest hattempt, ?_, hk⟩
    rw [hb]
    exact hrecords
  replied := by
    rintro c next phase u b now r b'
      ⟨hhonest, hrecords, k, ⟨hpermits, hruns⟩, ht, hsearched, hunit, hend⟩ hattempt
    have hhonest' := Backend.honest_replied hhonest hattempt
    have hsame (hc : (Observation.replied c r).isCommit = false) : b'.store.book.Records t := by
      obtain ⟨hrows, hentries⟩ := (Backend.attempt_replied hattempt).same hc
      rwa [Store.book_eq hrows hentries]
    have hnext := hruns r
    obtain ⟨hactive, hpermits⟩ := hpermits
    cases c with
    | findAccount id => exact ⟨hhonest', hsame rfl, k, hnext, ht, hsearched, hunit, hend⟩
    | findLast id => exact ⟨hhonest', hsame rfl, k, hnext, ht, hsearched, hunit, hend⟩
    | findByTransaction t' =>
      cases ht.symm.trans hpermits
      rcases Backend.attempt_findByTransaction hhonest hattempt with ⟨e, rfl, hnot⟩ | hr
      · have hk : k.tell (.replied (.findByTransaction t) (.error e)) = k := by
          rw [Knowledge.tell, hnot]
          rfl
        have hstays : Program.Obeys .conduct (command.Ends settings) (next (.error e)) k :=
          hk ▸ hnext
        exact ⟨hhonest', hsame rfl, k, hstays, ht, hsearched, hunit, hend⟩
      · obtain ⟨e, rest, hes⟩ := Store.exists_cons_entriesOf hrecords
        rw [hes] at hr
        subst hr
        refine ⟨hhonest', hsame rfl, _, hnext, ht, hsearched, hunit, ?_⟩
        rintro ⟨⟩
    | openUnit =>
      rw [hsearched] at hpermits
      cases hpermits.2
    | rollback u => exact hpermits.elim
    | append u drafts | upsertAccount u a | commit u =>
      rw [hunit] at hpermits
      cases hpermits
    | lockAccount u id | findByTransactionIn u t' | findLastIn u id =>
      rw [hunit] at hpermits
      cases hpermits.1

/-- A command does not succeed if its transaction is recorded and the store does not deny it. -/
theorem Backend.not_answered_of_records {b : Backend} (hf : b.faults.Honest) {v : Visit}
    {t : TransactionId} (ht : v.command.transaction? = some t) (hrecords : b.store.book.Records t)
    (answer : Answer) : (b.serve v).1 ≠ some (.answered answer) := by
  have hstart : Barred v.settings v.command t ⟨v.command.program v.settings, .fresh, none⟩ b :=
    ⟨hf, hrecords, _, v.command.runs_program v.settings, ht, rfl, rfl, by simp⟩
  obtain ⟨o, ho, sus, b', ⟨-, -, k, hruns, -, -, -, hend⟩, -, hanswer⟩ :=
    (stepwise_barred v.settings v.command t).serve hstart
  intro h
  rw [ho] at h
  rw [hanswer answer (Option.some.inj h)] at hruns
  rcases hruns with ⟨hnone, -⟩ | ⟨hcommitted, -⟩
  · rw [ht] at hnone
    cases hnone
  · exact hend hcommitted

end Bookkeeping
