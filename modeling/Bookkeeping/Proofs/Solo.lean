import Bookkeeping.Proofs.Orderly

/-! # Commands by themselves

A turn is a command that has a store to itself, together with what the clock shows when it looks.
The store answers each call at once. Turns can be played one after the other.
-/
namespace Bookkeeping
open Bookkeeping.Time

structure Solo where
  store : Store
  readings : List Instant
  unit : Option UnitId := none

namespace Solo

/-- A call that would have to wait gives nothing. -/
def reply (c : Call) : StateT Solo Option c.Reply := fun s =>
  match s.store.respond c with
  | .replied r store => some (r, { s with store, unit := unitAfter s.unit c r })
  | .waits _ => none

def clock : StateT Solo Option Instant := fun s =>
  match s.readings with
  | [] => none
  | t :: rest => some (t, { s with readings := rest })

/-- The store after a program is done; it leaves no unit of work open. -/
def leave (s : Solo) : Store :=
  match s.unit with
  | none => s.store
  | some u => s.store.close u

end Solo

structure Turn where
  settings : Settings
  command : Command
  readings : List Instant

namespace Turn

/-- Plays a turn. The readings have to be just those that the command makes. -/
def play (t : Turn) (s : Store) : Option (Outcome × Store) :=
  match (t.command.program t.settings).answer Solo.reply Solo.clock ⟨s, t.readings, none⟩ with
  | some (r, solo) => if solo.readings.isEmpty then some (.ofResult r, solo.leave) else none
  | none => none

/-- Plays turns one after the other. -/
def playAll : List Turn → Store → Option (List Outcome × Store)
  | [], s => some ([], s)
  | t :: rest, s => do
    let (o, s) ← t.play s
    let (os, s) ← playAll rest s
    return (o :: os, s)

theorem playAll_concat {turns : List Turn} {t : Turn} {s s' s'' : Store} {os : List Outcome}
    {o : Outcome} (h : playAll turns s = some (os, s')) (ht : t.play s' = some (o, s'')) :
    playAll (turns ++ [t]) s = some (os ++ [o], s'') := by
  induction turns generalizing s os with
  | nil =>
    cases h
    simp [playAll, ht]
  | cons first rest ih =>
    simp only [playAll, Option.bind_eq_bind, Option.bind_eq_some_iff] at h
    obtain ⟨⟨o₁, s₁⟩, h₁, ⟨os₁, s₂⟩, h₂, he⟩ := h
    cases he
    simp [playAll, h₁, ih h₂]

end Turn

theorem Program.answer_bind {m : Type → Type} [Monad m] [LawfulMonad m] {α β : Type}
    (reply : (c : Call) → m c.Reply) (clock : m Instant) (p : Program α) (f : α → Program β) :
    (p >>= f).answer reply clock = p.answer reply clock >>= fun a => (f a).answer reply clock := by
  induction p with
  | done a => simp [answer]
  | call c next ih => simp only [call_bind, answer, ih, LawfulMonad.bind_assoc]
  | clock next ih => simp only [clock_bind, answer, ih, LawfulMonad.bind_assoc]

namespace Workflow

variable {α β : Type} {w : Workflow α} {f : α → Workflow β} {a : α} {b : β} {s s' s'' : Solo}

def Gives (w : Workflow α) (s : Solo) (a : α) (s' : Solo) : Prop :=
  w.program.answer Solo.reply Solo.clock s = some (.ok a, s')

theorem Gives.pure (a : α) (s : Solo) : Gives (Pure.pure a) s a s := rfl

theorem Gives.bind (h : w.Gives s a s') (hf : (f a).Gives s' b s'') : (w >>= f).Gives s b s'' := by
  rw [Gives, program_bind, Program.answer_bind]
  exact (Option.bind_eq_some_iff.mpr ⟨_, h, hf⟩)

theorem Gives.bind_bind {γ : Type} {g : β → Workflow γ} {c : γ} (h : (w >>= f).Gives s b s')
    (hg : (g b).Gives s' c s'') : (w >>= fun a => f a >>= g).Gives s c s'' := by
  rw [← bind_assoc]
  exact h.bind hg

theorem Gives.ask {c : Call} {r : c.Reply} {store : Store}
    (h : s.store.respond c = .replied r store) :
    (ask c).Gives s r { s with store, unit := unitAfter s.unit c r } := by
  rw [Gives, Workflow.ask, program_perform, Program.answer_bind]
  refine Option.bind_eq_some_iff.mpr ⟨(r, _), ?_, rfl⟩
  refine Option.bind_eq_some_iff.mpr ⟨(r, _), ?_, rfl⟩
  rw [Solo.reply, h]

theorem Gives.now {t : Instant} {rest : List Instant} (h : s.readings = t :: rest) :
    now.Gives s t { s with readings := rest } := by
  rw [Gives, Workflow.now, program_perform, Program.answer_bind]
  refine Option.bind_eq_some_iff.mpr ⟨(t, _), ?_, rfl⟩
  refine Option.bind_eq_some_iff.mpr ⟨(t, _), ?_, rfl⟩
  rw [Solo.clock, h]

theorem Gives.call {c : Call} {next : c.Reply → Program β} {r : c.Reply} {store : Store}
    (h : s.store.respond c = .replied r store)
    (hn : (next r).answer Solo.reply Solo.clock
      { s with store, unit := unitAfter s.unit c r } = some (b, s')) :
    (perform (.call c next)).Gives s b s' := by
  rw [Gives, program_perform, Program.answer_bind]
  refine Option.bind_eq_some_iff.mpr ⟨(b, s'), ?_, rfl⟩
  refine Option.bind_eq_some_iff.mpr ⟨(r, _), ?_, hn⟩
  rw [Solo.reply, h]

end Workflow

/-! ## A store with one unit of work -/

namespace Store

variable {s : Store} {u : UnitId} {w : WorkUnit}

/-- No unit of work is open. -/
def Quiet (s : Store) : Prop := s.units = [] ∧ s.waiting = []

/-- The store with this unit of work as the only one. -/
def holding (s : Store) (u : UnitId) (w : WorkUnit) : Store := { s with units := [(u, w)] }

@[simp] theorem unit_holding (s : Store) (u : UnitId) (w : WorkUnit) :
    (s.holding u w).unit u = w := by
  simp [unit, holding]

@[simp] theorem setUnit_holding (s : Store) (u : UnitId) (w w' : WorkUnit) :
    (s.holding u w).setUnit u w' = s.holding u w' := by
  simp [setUnit, holding]

theorem respond_openUnit (h : s.Quiet) :
    s.respond .openUnit = .replied (.ok ⟨s.opened⟩)
      ({ s with opened := s.opened + 1 }.holding ⟨s.opened⟩ {}) := by
  simp [respond, openUnit, holding, h.1]

theorem respond_lockAccount {id : AccountId} (hid : id ∉ w.held) :
    (s.holding u w).respond (.lockAccount u id) =
      .replied (foundOr "account" ((findRow id w.rows).or (findRow id s.rows)))
        (s.holding u { w with held := id :: w.held }) := by
  have hfree : ¬(s.holding u w).Locked id := by simpa [Locked, holding] using hid
  rw [respond, lock, unit_holding, if_neg hid, if_neg hfree, giveLock, unit_holding,
    setUnit_holding, rowIn, unit_holding]
  rfl

/-- Drafts that can all be committed. -/
def Fits (s : Store) (drafts : List Draft) : Prop :=
  (drafts.map Draft.key).Nodup ∧ ∀ d ∈ drafts, ¬s.Taken d.key

theorem Fits.left {before after : List Draft} (h : s.Fits (before ++ after)) : s.Fits before := by
  obtain ⟨hn, ht⟩ := h
  rw [List.map_append] at hn
  exact ⟨(List.nodup_append.mp hn).1, fun d hd => ht d (List.mem_append_left _ hd)⟩

theorem Fits.committable (h : s.Fits (w.entries.map (·.toDraft))) : s.Committable w := by
  refine ⟨?_, fun e he => h.2 _ (List.mem_map_of_mem he)⟩
  have hn := h.1
  rwa [List.map_map] at hn

theorem Fits.stage {drafts : List Draft} {staged : List Entry}
    (h : s.Fits ((s.unit u).entries.map (·.toDraft) ++ staged.map (·.toDraft) ++ drafts))
    (key : Nat) : ∃ staged' key', stage (s.isFree u) key staged drafts = (some staged', key') := by
  induction drafts generalizing staged key with
  | nil => exact ⟨staged, key, rfl⟩
  | cons d rest ih =>
    have hfree : s.isFree u staged d = true := by
      have hnot := h.2 d (by simp)
      have hn := h.1
      rw [List.map_append, List.nodup_append] at hn
      simp only [isFree, hnot, decide_false, Bool.not_false, Bool.true_and, List.all_eq_true,
        decide_eq_true_eq]
      intro e he
      refine hn.2.2 _ ?_ _ (by simp)
      rw [← List.map_append, List.map_map]
      exact List.mem_map_of_mem he
    rw [Store.stage, if_pos hfree]
    refine ih ?_ _
    simpa using h

theorem Fits.append {drafts : List Draft}
    (h : s.Fits (w.entries.map (·.toDraft) ++ drafts)) :
    ∃ key new, new.map (·.toDraft) = drafts ∧
      (s.holding u w).respond (.append u drafts) = .replied (.ok ())
        ({ s with lastKey := key }.holding u { w with entries := w.entries ++ new }) := by
  have hfits : (s.holding u w).Fits (((s.holding u w).unit u).entries.map (·.toDraft) ++
      ([] : List Entry).map (·.toDraft) ++ drafts) := by
    rw [unit_holding, List.map_nil, List.append_nil]
    exact h
  obtain ⟨new, key, hstage⟩ := hfits.stage (s.holding u w).lastKey
  refine ⟨key, new, by simpa using stage_toDraft hstage, ?_⟩
  rw [respond, Store.append, hstage]
  simp only [unit_holding]
  exact congrArg (Response.replied _) (setUnit_holding { s with lastKey := key } u w _)

theorem respond_upsertAccount (a : Account) :
    (s.holding u w).respond (.upsertAccount u a) =
      .replied (.ok ()) (s.holding u { w with rows := putRow a w.rows }) := by
  rw [respond, unit_holding, setUnit_holding]

theorem close_holding (hw : s.waiting = []) :
    (s.holding u w).close u = { s with units := [] } := by
  have hwithout : (s.holding u w).without u = { s with units := [] } := by
    simp [without, holding, hw]
  rw [close_eq, hwithout]
  generalize ((s.holding u w).unit u).held = ids
  induction ids with
  | nil => rfl
  | cons id rest ih =>
    have hnone : handOver { s with units := [] } id = { s with units := [] } := by
      simp [handOver, hw]
    rw [List.foldl_cons, hnone, ih]

theorem respond_commit (hw : s.waiting = []) (h : s.Fits (w.entries.map (·.toDraft))) :
    (s.holding u w).respond (.commit u) = .replied (.ok ())
      { s with
        rows := w.rows.foldr putRow s.rows
        entries := s.entries ++ w.entries
        units := [] } := by
  have hc : (s.holding u w).Committable w := h.committable
  rw [respond, commit, unit_holding, if_pos hc]
  have hclose : ((s.holding u w).merge w).close u = _ :=
    close_holding (s := { s with
      rows := w.rows.foldr putRow s.rows
      entries := s.entries ++ w.entries }) hw
  rw [hclose]

theorem close_quiet (h : s.Quiet) (u : UnitId) : s.close u = s := by
  obtain ⟨rows, entries, lastKey, units, waiting, opened⟩ := s
  obtain ⟨rfl, rfl⟩ := h
  rfl

end Store

end Bookkeeping
