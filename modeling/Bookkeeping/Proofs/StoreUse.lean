import Bookkeeping.Proofs.Queue

/-! # Stores in use

Any number of units of work use one store in any order. One access is a call, the end of a unit of work
that is dropped, or the end of a wait that is given up; a run, which is any list of accesses, is any
interleaving of them. A unit of work that has ended is not used again, so that an access of it changes
nothing. What was replied, and what the units that committed had written, is kept as history; no access
depends on it.
-/
namespace Bookkeeping

/-- What may be done to a store. -/
inductive Access where
  | call (c : Call)
  | drop (u : UnitId)
  | giveUp (u : UnitId)

def Access.unit? : Access → Option UnitId
  | .call c => c.unit?
  | .drop u | .giveUp u => some u

namespace Store

/-- An access belongs to no unit of work or to an open one. -/
def Admits (s : Store) (a : Access) : Prop := ∀ u ∈ a.unit?, s.IsOpen u

instance (s : Store) (a : Access) : Decidable (s.Admits a) :=
  inferInstanceAs (Decidable (∀ u ∈ a.unit?, s.IsOpen u))

/-- The unit of work that a reply lets commit, with what it has written. -/
def landing (s : Store) : (c : Call) → c.Reply → List (UnitId × WorkUnit)
  | .commit u, .ok _ => [(u, s.unit u)]
  | _, _ => []

end Store

/-- A store with the replies it has given, and with the units of work whose commits succeeded, in the
order of these and as they were before them. -/
structure Usage where
  store : Store
  history : List Observation := []
  landed : List (UnitId × WorkUnit) := []

namespace Usage

def fresh (rows : List Account) (entries : List Entry) (lastKey : Nat) : Usage :=
  { store := { rows, entries, lastKey } }

def call (x : Usage) (c : Call) : Usage :=
  match x.store.respond c with
  | .replied r store => ⟨store, x.history ++ [.replied c r], x.landed ++ x.store.landing c r⟩
  | .waits store => { x with store }

/-- Performs an access. -/
def step (x : Usage) (a : Access) : Usage :=
  if x.store.Admits a then
    match a with
    | .call c => x.call c
    | .drop u => { x with store := x.store.close u }
    | .giveUp u => { x with store := x.store.stopWaiting u }
  else x

def run (x : Usage) (accesses : List Access) : Usage := accesses.foldl step x

@[simp] theorem run_nil (x : Usage) : x.run [] = x := rfl

@[simp] theorem run_concat (x : Usage) (accesses : List Access) (a : Access) :
    x.run (accesses ++ [a]) = (x.run accesses).step a := by
  simp [run]

theorem run_append (x : Usage) (before after : List Access) :
    x.run (before ++ after) = (x.run before).run after := by
  simp [run]

/-- What an access can do: nothing but to a queue before a lock, drop an open unit of work, or bring the
reply to a call. -/
theorem step_cases (x : Usage) (a : Access) :
    (∃ waiting, x.step a = { x with store := { x.store with waiting } }) ∨
    (∃ u, a = .drop u ∧ x.step a = { x with store := x.store.close u }) ∨
    ∃ c r s', a = .call c ∧ (∀ u, c.unit? = some u → x.store.IsOpen u) ∧
      x.store.respond c = .replied r s' ∧
      x.step a = ⟨s', x.history ++ [.replied c r], x.landed ++ x.store.landing c r⟩ := by
  unfold step
  split
  · rename_i hadmits
    cases a with
    | call c =>
      cases h : x.store.respond c with
      | replied r s' => exact .inr (.inr ⟨c, r, s', rfl, hadmits, h, by simp only [call, h]⟩)
      | waits s' =>
        obtain ⟨u, id, -, -, -, hs'⟩ := Store.respond_waits h
        refine .inl ⟨s'.waiting, ?_⟩
        simp only [call, h, hs']
        split <;> rfl
    | drop u => exact .inr (.inl ⟨u, rfl, rfl⟩)
    | giveUp u => exact .inl ⟨_, rfl⟩
  · exact .inl ⟨_, rfl⟩

theorem sound_fresh (rows : List Account) (entries : List Entry) (lastKey : Nat) :
    (fresh rows entries lastKey).store.Sound :=
  Store.sound_empty.of_same rfl rfl fun _ => rfl

theorem sound_step {x : Usage} (h : x.store.Sound) (a : Access) : (x.step a).store.Sound := by
  rcases x.step_cases a with ⟨waiting, he⟩ | ⟨u, -, he⟩ | ⟨c, r, s', -, -, hr, he⟩ <;> rw [he]
  · exact h.of_same rfl rfl fun _ => rfl
  · exact h.close u
  · exact (Store.Told.answered hr).sound h

end Usage

end Bookkeeping
