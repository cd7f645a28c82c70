import Bookkeeping.Proofs.Sequences
import Bookkeeping.Proofs.Twins

/-! # Twins in lockstep

Twins that are run over stores that resemble each other, under the same faults and with the same clock,
sleep at the same times and come to the same end. A command by itself therefore has the same outcome
over both stores, and they still resemble each other afterwards.
-/
namespace Bookkeeping
open Bookkeeping.Time

/-! ## Calls -/

namespace Backend

/-- Stores that resemble each other, under these faults. No injection is armed: it would be used up by
calls that only one of the stores has seen. -/
structure Resembles (f : Faults) (o : Names) (b b' : Backend) : Prop where
  store : b.store.Resembles o b'.store
  faults : b.faults = f
  faults' : b'.faults = f
  plain : f.injections = []

/-- Attempts that are both answered, or both asleep for as long. -/
inductive Attempt.Abreast (f : Faults) (o : Names) (b b' : Backend) {c c' : Call} :
    Attempt c → Attempt c' → Prop
  | replied {r : c.Reply} {r' : c'.Reply} {t t' : Backend} {o' : Names}
      (echoes : Call.Echoes o c c' r r' o') (after : t.Resembles f o' t') :
      Abreast f o b b' (.replied r t) (.replied r' t')
  | asleep (wake : Duration) :
      Abreast f o b b' (.suspended (.asleep wake) b) (.suspended (.asleep wake) b')

theorem attempt_uninjected {b : Backend} (h : b.faults.injections = []) (now : Duration) (c : Call) :
    b.attempt now c .fresh = b.start now c := by
  obtain ⟨store, failing, delay, injections⟩ := b
  cases h
  rfl

namespace Resembles

variable {f : Faults} {o : Names} {b b' : Backend} {c c' : Call}

theorem enter (h : b.Resembles f o b') (hc : Call.Pairs o c c') :
    Attempt.Abreast f o b b' (b.enter c) (b'.enter c') := by
  rw [Backend.enter, Backend.enter, h.faults, h.faults', ← hc.operation]
  split
  · rename_i hfails
    exact .replied (hc.refused hfails.2.1 _) h
  · obtain ⟨r, r', t, t', o', hr, hr', hechoes, ht⟩ := h.store.respond hc
    rw [hr, hr']
    exact .replied hechoes ⟨ht, rfl, rfl, h.plain⟩

theorem enterAt (h : b.Resembles f o b') (hc : Call.Pairs o c c') (now wake : Duration) :
    Attempt.Abreast f o b b' (b.enterAt now wake c) (b'.enterAt now wake c') := by
  rw [Backend.enterAt, Backend.enterAt]
  split
  · exact h.enter hc
  · exact .asleep wake

theorem start (h : b.Resembles f o b') (hc : Call.Pairs o c c') (now : Duration) :
    Attempt.Abreast f o b b' (b.start now c) (b'.start now c') := by
  have henter := h.enter hc
  cases hc with
  | lockAccount u u' id =>
    cases hdelay : f.lockDelay with
    | none => simpa only [Backend.start, h.faults, h.faults', hdelay] using henter
    | some delay =>
      simp only [Backend.start, h.faults, h.faults', hdelay]
      exact h.enterAt (.lockAccount u u' id) now _
  | _ => exact henter

/-- No call waits for a lock, as no other unit of work has any. -/
theorem attempt (h : b.Resembles f o b') (hc : Call.Pairs o c c') (now : Duration) {phase : Phase}
    (hphase : phase ≠ .entered) :
    Attempt.Abreast f o b b' (b.attempt now c phase) (b'.attempt now c' phase) := by
  cases phase with
  | fresh =>
    rw [attempt_uninjected (h.faults ▸ h.plain), attempt_uninjected (h.faults' ▸ h.plain)]
    exact h.start hc now
  | asleep wake => exact h.enterAt hc now wake
  | entered => exact absurd rfl hphase

end Resembles

end Backend

/-! ## Programs -/

structure World.Resembles (f : Faults) (o : Names) (w w' : World) : Prop where
  backend : w.backend.Resembles f o w'.backend
  clock : w.clock = w'.clock

theorem World.dropUnit_quiet {w : World} (h : w.backend.store.Quiet) (u : Option UnitId) :
    w.dropUnit u = w := by
  cases u with
  | none => rfl
  | some u =>
    have hclose := Store.close_quiet h u
    obtain ⟨⟨store, faults⟩, clock⟩ := w
    simp only [dropUnit, Backend.onStore, hclose]

theorem World.Resembles.dropUnit {f : Faults} {o : Names} {w w' : World}
    (h : w.Resembles f o w') {u u' : Option UnitId} (hk : Call.Knows o u u') :
    (w.dropUnit u).Resembles f none (w'.dropUnit u') := by
  cases o with
  | none =>
    obtain ⟨hquiet, hquiet'⟩ := h.backend.store.quiet_both
    rw [dropUnit_quiet hquiet, dropUnit_quiet hquiet']
    exact h
  | some names =>
    obtain ⟨v, v'⟩ := names
    obtain ⟨rfl, rfl⟩ := hk v v' rfl
    exact ⟨{ h.backend with store := h.backend.store.close }, h.clock⟩

inductive Progress.Abreast {α : Type} (f : Faults) :
    Progress α × World → Progress α × World → Prop
  | finished (a : α) {w w' : World} (worlds : w.Resembles f none w') :
      Abreast f (.finished a, w) (.finished a, w')
  | suspended {o : Names} {p q : Program α} (wake : Duration) {u u' : Option UnitId} {w w' : World}
      (twins : p.Twins (fun _ a b => a = b) o q) (knows : Call.Knows o u u')
      (worlds : w.Resembles f o w') :
      Abreast f (.suspended ⟨p, .asleep wake, u⟩, w) (.suspended ⟨q, .asleep wake, u'⟩, w')

theorem Program.Twins.advance {α : Type} {f : Faults} {o : Names} {p q : Program α}
    (h : p.Twins (fun _ a b => a = b) o q) (now : Duration) {phase : Backend.Phase}
    (hphase : phase ≠ .entered) {u u' : Option UnitId} (hk : Call.Knows o u u') {w w' : World}
    (hw : w.Resembles f o w') :
    Progress.Abreast f (p.advance now phase u w) (q.advance now phase u' w') := by
  induction h generalizing phase u u' w w' with
  | done heq =>
    rw [heq]
    exact .finished _ (hw.dropUnit hk)
  | @call o c c' next next' pairs later ih =>
    rw [Program.advance, Program.advance]
    have hattempt := hw.backend.attempt pairs now hphase
    generalize w.backend.attempt now c phase = x at hattempt ⊢
    generalize w'.backend.attempt now c' phase = x' at hattempt ⊢
    cases hattempt with
    | replied echoes after =>
      exact ih _ _ _ echoes (by simp) (echoes.knows hk) ⟨after, hw.clock⟩
    | asleep wake => exact .suspended wake (.call pairs later) hk ⟨hw.backend, hw.clock⟩
  | clock later ih =>
    rw [Program.advance, Program.advance, hw.clock]
    exact ih _ (by simp) hk ⟨hw.backend, rfl⟩

/-! ## Jobs -/

namespace Job

inductive Abreast (f : Faults) : Job × World → Job × World → Prop
  | pending (command : Command) (start : Duration) {w w' : World} (worlds : w.Resembles f none w') :
      Abreast f (⟨command, start, .pending⟩, w) (⟨command, start, .pending⟩, w')
  | running (command : Command) (start wake deadline : Duration) {o : Names}
      {p q : Program (Except Failure Answer)} {u u' : Option UnitId} {w w' : World}
      (twins : p.Twins (fun _ a b => a = b) o q) (knows : Call.Knows o u u')
      (worlds : w.Resembles f o w') :
      Abreast f (⟨command, start, .running ⟨p, .asleep wake, u⟩ deadline⟩, w)
        (⟨command, start, .running ⟨q, .asleep wake, u'⟩ deadline⟩, w')
  | ended (command : Command) (start : Duration) (o : Outcome) {w w' : World}
      (worlds : w.Resembles f none w') :
      Abreast f (⟨command, start, .ended o⟩, w) (⟨command, start, .ended o⟩, w')

variable {f : Faults} {j j' : Job} {w w' : World}

theorem Abreast.timers (h : Abreast f (j, w) (j', w')) : j.timers = j'.timers := by
  cases h <;> rfl

theorem Abreast.isReady (h : Abreast f (j, w) (j', w')) (now : Duration) :
    j.isReady w.backend now = j'.isReady w'.backend now := by
  have hlock : j.hasLock w.backend = false ∧ j'.hasLock w'.backend = false := by
    cases h with
    | pending => exact ⟨rfl, rfl⟩
    | running =>
      unfold hasLock
      constructor <;> split <;> simp_all
    | ended => exact ⟨rfl, rfl⟩
  rw [Job.isReady, Job.isReady, hlock.1, hlock.2, h.timers]

theorem abreast_go (settings : Settings) (now deadline : Duration)
    {sus sus' : Suspended (Except Failure Answer)}
    (h : Progress.Abreast f (sus.program.advance now sus.phase sus.unit w)
      (sus'.program.advance now sus'.phase sus'.unit w'))
    (command : Command) (start : Duration) (state state' : JobState) :
    Abreast f (go settings now deadline sus ⟨command, start, state⟩ w)
      (go settings now deadline sus' ⟨command, start, state'⟩ w') := by
  unfold go
  generalize sus.program.advance now sus.phase sus.unit w = x at h ⊢
  generalize sus'.program.advance now sus'.phase sus'.unit w' = x' at h ⊢
  cases h with
  | finished a worlds => exact .ended command start _ worlds
  | suspended wake twins knows worlds =>
    dsimp only
    split
    · exact .ended command start _ (worlds.dropUnit knows)
    · exact .running command start wake deadline twins knows worlds

theorem Abreast.advance (h : Abreast f (j, w) (j', w')) (settings : Settings) (now : Duration) :
    Abreast f (j.advance settings now w) (j'.advance settings now w') := by
  cases h with
  | pending command start worlds =>
    simp only [Job.advance]
    split
    · refine abreast_go settings now _ ?_ command start _ _
      exact (command.twins_program settings).advance now (by simp) (by rintro _ _ ⟨⟩) worlds
    · exact .pending command start worlds
  | running command start wake deadline twins knows worlds =>
    refine abreast_go settings now deadline ?_ command start _ _
    exact twins.advance now (by simp) knows worlds
  | ended command start o worlds => exact .ended command start o worlds

end Job

/-! ## Schedules -/

theorem Schedule.abreast_loop {f : Faults} (settings : Settings) (fuel : Nat) (now : Duration)
    {j j' : Job} {w w' : World} (h : Job.Abreast f (j, w) (j', w')) :
    ∃ x x', loop settings fuel now [j] w = ([x.1], x.2) ∧
      loop settings fuel now [j'] w' = ([x'.1], x'.2) ∧ Job.Abreast f x x' := by
  induction fuel generalizing now j j' w w' with
  | zero =>
    have hlate : endOfTime settings [j] = endOfTime settings [j'] := by
      simp only [endOfTime, List.flatMap_cons, h.timers]
    rw [loop, loop, ← hlate]
    exact ⟨_, _, rfl, rfl, (h.advance settings _).advance settings _⟩
  | succ fuel ih =>
    have hready : [j].any (·.isReady w.backend now) = [j'].any (·.isReady w'.backend now) := by
      simp only [List.any_cons, h.isReady now]
      rfl
    have htimer : nextTimer [j] = nextTimer [j'] := by
      simp only [nextTimer, List.flatMap_cons, h.timers]
    rw [loop, loop, ← hready, ← htimer]
    split
    · exact ih now (h.advance settings now)
    · split
      · exact ⟨(j, w), (j', w'), rfl, rfl, h⟩
      · exact ih _ h

theorem Schedule.abreast_run {f : Faults} (settings : Settings) {j j' : Job} {w w' : World}
    (h : Job.Abreast f (j, w) (j', w')) :
    ∃ x x', run settings [j] w = ([x.1], x.2) ∧ run settings [j'] w' = ([x'.1], x'.2) ∧
      Job.Abreast f x x' :=
  abreast_loop settings _ ⟨0⟩ h

theorem Backend.serve_of_run {b : Backend} {v : Visit} {j : Job} {w : World}
    (h : Schedule.run v.settings [.ofCommand v.command ⟨0⟩] ⟨b, v.clock⟩ = ([j], w)) :
    b.serve v = (j.outcome?, w.backend) := by
  simp only [serve, Schedule.single, Schedule.outcomes, List.map_cons, List.map_nil, h]
  cases hout : j.outcome? <;> simp [hout]

/-- A command by itself cannot tell stores apart that resemble each other. -/
theorem Backend.Resembles.serve {f : Faults} {b b' : Backend} (h : b.Resembles f none b')
    (v : Visit) :
    (b.serve v).1 = (b'.serve v).1 ∧ (b.serve v).2.Resembles f none (b'.serve v).2 := by
  have hstart : Job.Abreast f (.ofCommand v.command ⟨0⟩, ⟨b, v.clock⟩)
      (.ofCommand v.command ⟨0⟩, ⟨b', v.clock⟩) := .pending v.command ⟨0⟩ ⟨h, rfl⟩
  obtain ⟨x, x', hrun, hrun', hx⟩ := Schedule.abreast_run v.settings hstart
  rw [serve_of_run hrun, serve_of_run hrun']
  obtain ⟨j, w, o, hended, hstate⟩ :=
    Schedule.loop_singleton v.settings _ ⟨0⟩ (.ofCommand v.command ⟨0⟩) ⟨b, v.clock⟩
  have hsame : ([x.1], x.2) = ([j], w) := hrun.symm.trans hended
  cases hsame
  cases hx with
  | pending => cases hstate
  | running => cases hstate
  | ended command start o worlds => exact ⟨rfl, worlds.backend⟩

end Bookkeeping
