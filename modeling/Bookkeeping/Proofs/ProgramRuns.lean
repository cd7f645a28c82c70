import Bookkeeping.Proofs.Rules

/-! # Runs of programs over any store

What a program may be told depends on nothing but its own calls: to each call every reply is possible.
A run goes as far as it likes, so that what holds along every run holds over every store, whatever it
replies and wherever the program is stopped.
-/
namespace Bookkeeping
open Bookkeeping.Time

def Observation.call? : Observation → Option Call
  | .replied c _ => some c
  | .read _ => none

def answered (h : List Observation) : List Call := h.filterMap Observation.call?

@[simp] theorem answered_replied (h : List Observation) (c : Call) (r : c.Reply) :
    answered (h ++ [.replied c r]) = answered h ++ [c] := by
  simp [answered, Observation.call?]

@[simp] theorem answered_read (h : List Observation) (t : Instant) :
    answered (h ++ [.read t]) = answered h := by
  simp [answered, Observation.call?]

namespace Program

variable {α : Type} {p q : Program α} {h h₀ : List Observation}

/-- A program that is told this from its start on goes on as another program. -/
inductive Reaches : Program α → List Observation → Program α → Prop where
  | start (p : Program α) : p.Reaches [] p
  | replied {c : Call} {next : c.Reply → Program α} (r : c.Reply) {h : List Observation}
      {q : Program α} (later : (next r).Reaches h q) : (call c next).Reaches (.replied c r :: h) q
  | read {next : Instant → Program α} (t : Instant) {h : List Observation} {q : Program α}
      (later : (next t).Reaches h q) : (clock next).Reaches (.read t :: h) q

def pending : Program α → Option Call
  | .call c _ => some c
  | _ => none

/-- The calls that a program has made when it was told this, answered or not. -/
def made (h : List Observation) (p : Program α) : List Call := answered h ++ p.pending.toList

/-- Over any store, with any state of its own, a program comes to its end. -/
theorem exists_reaches_done {σ : Type} (reply : (c : Call) → StateM σ c.Reply)
    (reading : StateM σ Instant) (p : Program α) (s : σ) :
    ∃ h, p.Reaches h (.done (p.answer reply reading s).1) := by
  induction p generalizing s with
  | done a => exact ⟨[], .start _⟩
  | call c next ih =>
    obtain ⟨h, hr⟩ := ih (reply c s).1 (reply c s).2
    exact ⟨_, .replied _ hr⟩
  | clock next ih =>
    obtain ⟨h, hr⟩ := ih (reading s).1 (reading s).2
    exact ⟨_, .read _ hr⟩

namespace Reaches

theorem obeys {σ : Type} {C : Contract σ} (hC : C.Open) {Q : σ → α → Prop} {s : σ}
    (hr : p.Reaches h q) (hp : p.Obeys C Q s) : q.Obeys C Q (h.foldl C.tell s) := by
  induction hr generalizing s with
  | start p => exact hp
  | replied r _ ih => exact ih (hC.onCall hp r)
  | read t _ ih => exact ih (hC.onClock hp t)

theorem obeys_rule {P : Rule} {Q : List Observation → α → Prop} (hr : p.Reaches h q)
    (hp : p.Obeys P.contract Q h₀) : q.Obeys P.contract Q (h₀ ++ h) := by
  have hq := hr.obeys P.open_contract hp
  rwa [List.foldl_append_eq_append, ← List.flatMap_def, List.flatMap_singleton'] at hq

theorem ending_iff {Q : Knowledge → α → Prop} {k : Knowledge} (hr : p.Reaches h q)
    (hp : p.Obeys .conduct Q k) :
    (h.foldl Knowledge.tell k).ending = some .committed ↔
      k.ending = some .committed ∨ ∃ o ∈ h, o.isCommit = true := by
  induction hr generalizing k with
  | start p => simp
  | replied r _ ih =>
    rw [List.foldl_cons, ih (hp.2 r), Knowledge.ending_tell hp.1.1, hp.1.1]
    simp
  | read t _ ih =>
    rw [List.foldl_cons, ih (hp.2 t), Knowledge.ending_tell hp.1, hp.1]
    simp

end Reaches
end Program
end Bookkeeping
