import Bookkeeping.Proofs.Previews
import Mathlib.Data.List.Infix

/-! # When a store reports a conflict

A draft is refused whose account and number are taken already: by a draft before it, by an entry of its
unit of work or by a committed one. What a unit has written was therefore apart from what was committed,
and so its commit fails only if another unit was faster with one of its keys.
-/
namespace Bookkeeping
namespace Store

variable {s s' : Store} {u v : UnitId} {before drafts : List Draft} {d : Draft}

/-! ## Appending -/

/-- After other drafts, a draft has the key of one of them, of an entry of the unit of work or of a
committed entry. -/
def Offends (s : Store) (u : UnitId) (before : List Draft) (d : Draft) : Prop :=
  d.key ∈ before.map Draft.key ∨ d.key ∈ (s.unit u).entries.map Entry.key ∨ s.Taken d.key

instance (s : Store) (u : UnitId) (before : List Draft) (d : Draft) :
    Decidable (s.Offends u before d) :=
  inferInstanceAs (Decidable (_ ∨ _ ∨ _))

def Accepts (s : Store) (u : UnitId) (drafts : List Draft) : Prop :=
  ∀ before d, before ++ [d] <+: drafts → ¬s.Offends u before d

def extended (s : Store) (u : UnitId) (new : List Entry) : Store :=
  { s with lastKey := s.lastKey + new.length }.setUnit u
    { s.unit u with entries := (s.unit u).entries ++ new }

theorem map_key_toDraft (es : List Entry) : (es.map (·.toDraft)).map Draft.key = es.map Entry.key := by
  rw [List.map_map]
  rfl

theorem isFree_iff (staged : List Entry) :
    s.isFree u staged d = true ↔ ¬s.Offends u (staged.map (·.toDraft)) d := by
  simp only [isFree, Offends, map_key_toDraft, Bool.and_eq_true, Bool.not_eq_true',
    decide_eq_false_iff_not, List.all_eq_true, List.mem_append, decide_eq_true_eq, List.mem_map]
  grind

theorem accepts_nil (s : Store) (u : UnitId) : s.Accepts u [] := by
  intro before d h
  simp at h

theorem accepts_concat : s.Accepts u (before ++ [d]) ↔ s.Accepts u before ∧ ¬s.Offends u before d := by
  constructor
  · intro h
    refine ⟨fun earlier d' hd' => h earlier d' (hd'.trans (List.prefix_append _ _)), ?_⟩
    exact h before d (List.prefix_refl _)
  · rintro ⟨h, hd⟩ earlier d' hd'
    rcases List.prefix_concat_iff.mp hd' with he | hd'
    · obtain ⟨rfl, hlast⟩ := List.append_inj' he rfl
      rwa [List.singleton_inj.mp hlast]
    · exact h earlier d' hd'

theorem stage_cases (key : Nat) {staged : List Entry} (h : s.Accepts u (staged.map (·.toDraft)))
    (rest : List Draft) :
    (s.Accepts u (staged.map (·.toDraft) ++ rest) ∧
      ∃ all, stage (s.isFree u) key staged rest = (some all, key + rest.length)) ∨
    ∃ before d, before ++ [d] <+: rest ∧ s.Accepts u (staged.map (·.toDraft) ++ before) ∧
      s.Offends u (staged.map (·.toDraft) ++ before) d ∧
      stage (s.isFree u) key staged rest = (none, key + before.length) := by
  induction rest generalizing key staged with
  | nil => exact .inl ⟨by rwa [List.append_nil], staged, rfl⟩
  | cons d rest ih =>
    rw [stage]
    by_cases hd : s.Offends u (staged.map (·.toDraft)) d
    · rw [if_neg ((isFree_iff staged).not.mpr (not_not.mpr hd))]
      refine .inr ⟨[], d, by simp, ?_, ?_, rfl⟩ <;> rwa [List.append_nil]
    · rw [if_pos ((isFree_iff staged).mpr hd)]
      have hstaged : (staged ++ [d.stored ⟨(key + 1 : Nat)⟩ none]).map (·.toDraft) =
          staged.map (·.toDraft) ++ [d] := by simp
      have hnext := ih (key + 1) (hstaged ▸ accepts_concat.mpr ⟨h, hd⟩)
      rw [hstaged] at hnext
      rcases hnext with ⟨haccepts, all, he⟩ | ⟨before, d', hinit, haccepts, hoffends, he⟩
      · refine .inl ⟨by simpa using haccepts, all, ?_⟩
        rw [he, List.length_cons, Nat.add_assoc, Nat.add_comm 1]
      · refine .inr ⟨d :: before, d', ?_, by simpa using haccepts, by simpa using hoffends, ?_⟩
        · simpa using hinit
        · rw [he, List.length_cons, Nat.add_assoc, Nat.add_comm 1]

/-- Either all drafts are accepted and stored under the next keys, or one of them offends and nothing
changes but the last key given out. -/
theorem append_cases_accepts (s : Store) (u : UnitId) (drafts : List Draft) :
    (s.Accepts u drafts ∧ ∃ new, new.map (·.toDraft) = drafts ∧
      new.map (·.id.value) = (List.range' (s.lastKey + 1) drafts.length).map Int.ofNat ∧
      s.append u drafts = (.ok (), s.extended u new)) ∨
    ∃ before d, before ++ [d] <+: drafts ∧ s.Accepts u before ∧ s.Offends u before d ∧
      s.append u drafts =
        (.error (.conflict .append), { s with lastKey := s.lastKey + before.length }) := by
  have hnil : s.Accepts u (([] : List Entry).map (·.toDraft)) := s.accepts_nil u
  rcases stage_cases s.lastKey hnil drafts with
    ⟨haccepts, new, he⟩ | ⟨before, d, hinit, haccepts, hoffends, he⟩
  · have hdrafts := stage_toDraft he
    obtain ⟨_, rfl, hids, -⟩ := (exists_stage _ s.lastKey [] drafts).2 new (by rw [he])
    refine .inl ⟨haccepts, _, hdrafts, hids, ?_⟩
    have hlength := congrArg List.length hdrafts
    rw [List.length_map, List.map_nil, List.nil_append] at hlength
    rw [append, he, extended, hlength]
  · refine .inr ⟨before, d, hinit, haccepts, hoffends, ?_⟩
    rw [append, he]

theorem Accepts.length_le {before' : List Draft} {d' : Draft} (h : s.Accepts u before)
    (hbefore : before <+: drafts) (hinit : before' ++ [d'] <+: drafts)
    (hoffends : s.Offends u before' d') : before.length ≤ before'.length := by
  by_contra hlt
  have hlength : (before' ++ [d']).length ≤ before.length := by
    rw [List.length_append, List.length_singleton]
    omega
  exact h before' d' (List.prefix_of_prefix_length_le hinit hbefore hlength) hoffends

/-- The keys that are given out at a conflict are those of the drafts before the first that offends. -/
theorem append_of_first (h : before ++ [d] <+: drafts) (haccepts : s.Accepts u before)
    (hoffends : s.Offends u before d) :
    s.append u drafts =
      (.error (.conflict .append), { s with lastKey := s.lastKey + before.length }) := by
  rcases s.append_cases_accepts u drafts with
    ⟨hall, -⟩ | ⟨before', d', hinit, haccepts', hoffends', he⟩
  · exact absurd hoffends (hall before d h)
  · have hle := haccepts.length_le ((List.prefix_append _ _).trans h) hinit hoffends'
    have hle' := haccepts'.length_le ((List.prefix_append _ _).trans hinit) h hoffends
    rw [he, Nat.le_antisymm hle' hle]

theorem isOpen_of_mem_entries {e : Entry} (h : e ∈ (s.unit u).entries) : s.IsOpen u := by
  by_contra hu
  simp [unit_of_not_isOpen hu] at h

theorem unit_extended {new : List Entry} (ho : s.IsOpen u) :
    ((s.extended u new).unit u).entries = (s.unit u).entries ++ new := by
  rw [extended, unit_setUnit_self (by exact ho)]

theorem Accepts.nodup (h : s.Accepts u drafts) (hu : ((s.unit u).entries.map Entry.key).Nodup) :
    ((s.unit u).entries.map Entry.key ++ drafts.map Draft.key).Nodup := by
  induction drafts using List.reverseRecOn with
  | nil => simpa using hu
  | append_singleton drafts d ih =>
    obtain ⟨hdrafts, hd⟩ := accepts_concat.mp h
    obtain ⟨hbefore, hunit, -⟩ := not_or.mp hd |>.imp_right not_or.mp
    rw [List.map_append, ← List.append_assoc]
    refine List.nodup_append.mpr ⟨ih hdrafts, List.nodup_singleton _, ?_⟩
    rintro key hkey _ hd' rfl
    rw [List.mem_singleton.mp hd'] at hkey
    exact List.not_mem_append hunit hbefore hkey

theorem Accepts.not_taken (h : s.Accepts u drafts) (hd : d ∈ drafts) : ¬s.Taken d.key := by
  obtain ⟨before, after, rfl⟩ := List.append_of_mem hd
  have hinit : before ++ [d] <+: before ++ d :: after := ⟨after, by simp⟩
  exact fun ht => h before d hinit (.inr (.inr ht))

theorem entries_replied_cases {c : Call} {r : c.Reply} (hr : s.respond c = .replied r s')
    (ho : s'.IsOpen u) :
    (s'.entries = s.entries ∧ (s'.unit u).entries = (s.unit u).entries) ∨
    (∃ drafts new, s.Accepts u drafts ∧ new.map (·.toDraft) = drafts ∧ s'.entries = s.entries ∧
      (s'.unit u).entries = (s.unit u).entries ++ new) ∨
    ∃ v, c = .commit v ∧ v ≠ u ∧ s.respond (.commit v) = .replied (.ok ()) s' ∧
      s'.entries = s.entries ++ (s.unit v).entries ∧ (s'.unit u).entries = (s.unit u).entries := by
  cases c with
  | openUnit =>
    cases hr
    rw [unit_openUnit]
    exact .inl ⟨rfl, rfl⟩
  | lockAccount v id =>
    rcases (lock_replied hr).2 with ⟨-, rfl⟩ | ⟨-, rfl⟩
    · exact .inl ⟨rfl, rfl⟩
    · exact .inl ⟨rfl, (Keeps.giveLock _ v id u).entries⟩
  | upsertAccount v a =>
    cases hr
    exact .inl ⟨rfl, unit_setUnit_congr WorkUnit.entries rfl⟩
  | append v drafts =>
    cases hr
    rcases s.append_cases_accepts v drafts with
      ⟨haccepts, new, hnew, -, hs⟩ | ⟨_, _, -, -, -, hs⟩ <;> rw [hs] at ho ⊢
    · by_cases hv : v = u
      · subst hv
        exact .inr (.inl ⟨drafts, new, haccepts, hnew, rfl, unit_extended (isOpen_setUnit.mp ho)⟩)
      · exact .inl ⟨rfl, congrArg _ (unit_setUnit_of_ne (Ne.symm hv) _)⟩
    · exact .inl ⟨rfl, rfl⟩
  | commit v =>
    rcases s.commit_cases v with ⟨-, hcommit⟩ | hcommit
    · rw [respond, hcommit] at hr
      cases hr
      have hreply : s.respond (.commit v) = .replied (.ok ()) (s.committed v) := by
        rw [respond, hcommit, committed]
      exact .inr (.inr ⟨v, rfl, Ne.symm (isOpen_close.mp ho).1, hreply, entries_close _ v,
        (written_of_close ho).1⟩)
    · rw [respond, hcommit] at hr
      cases hr
      exact .inl ⟨entries_close _ v, (written_of_close ho).1⟩
  | rollback v =>
    cases hr
    exact .inl ⟨entries_close _ v, (written_of_close ho).1⟩
  | _ =>
    cases hr
    exact .inl ⟨rfl, rfl⟩

end Store

namespace Usage

open Store

variable {x : Usage} {u : UnitId}

/-! ## What a use can do to an open unit of work -/

theorem entries_use_cases {e : Use} (ho : (x.use e).store.IsOpen u) :
    ((x.use e).store.entries = x.store.entries ∧
      ((x.use e).store.unit u).entries = (x.store.unit u).entries) ∨
    (∃ drafts new, x.store.Accepts u drafts ∧ new.map (·.toDraft) = drafts ∧
      (x.use e).store.entries = x.store.entries ∧
      ((x.use e).store.unit u).entries = (x.store.unit u).entries ++ new) ∨
    ∃ v, e = .access (.call (.commit v)) ∧ v ≠ u ∧
      x.store.respond (.commit v) = .replied (.ok ()) (x.use e).store ∧
      (x.use e).store.entries = x.store.entries ++ (x.store.unit v).entries ∧
      ((x.use e).store.unit u).entries = (x.store.unit u).entries := by
  rcases x.use_cases e with ⟨a, rfl, he⟩ | ⟨v, id, -, -, he⟩ | he
  · rcases x.step_cases a with ⟨waiting, hs⟩ | ⟨v, -, hs⟩ | ⟨c, r, s', rfl, -, hr, hs⟩ <;>
      rw [he, hs] at ho ⊢
    · exact .inl ⟨rfl, rfl⟩
    · exact .inl ⟨entries_close _ v, (written_of_close ho).1⟩
    · rcases entries_replied_cases hr ho with hsame | happends | ⟨v, rfl, hv, hreply, hcommits⟩
      · exact .inl hsame
      · exact .inr (.inl happends)
      · exact .inr (.inr ⟨v, rfl, hv, hreply, hcommits⟩)
  · rw [he]
    exact .inl ⟨entries_release _ v id, (written_release _ v id u).2⟩
  · rw [he]
    exact .inl ⟨rfl, rfl⟩

theorem opened_le_use (x : Usage) (e : Use) : x.store.opened ≤ (x.use e).store.opened := by
  rcases x.use_cases e with ⟨a, -, he⟩ | ⟨v, id, -, -, he⟩ | he <;> rw [he]
  · rcases x.step_cases a with ⟨waiting, hs⟩ | ⟨v, -, hs⟩ | ⟨c, r, s', -, -, hr, hs⟩ <;> rw [hs]
    · rw [opened_close]
    · exact opened_le_of_replied hr
  · rw [opened_release]

theorem opened_le_useAll (x : Usage) (uses : List Use) :
    x.store.opened ≤ (x.useAll uses).store.opened := by
  induction uses using List.reverseRecOn with
  | nil => exact Nat.le_refl _
  | append_singleton uses e ih =>
    rw [useAll_concat]
    exact ih.trans (opened_le_use _ e)

theorem prefix_useAll (hs : x.store.Sound) (ho : x.store.IsOpen u) {uses : List Use}
    (hend : (x.useAll uses).store.IsOpen u) :
    (x.store.unit u).entries <+: ((x.useAll uses).store.unit u).entries ∧
      x.store.entries <+: (x.useAll uses).store.entries := by
  induction uses using List.reverseRecOn with
  | nil => exact ⟨List.prefix_refl _, List.prefix_refl _⟩
  | append_singleton uses e ih =>
    rw [useAll_concat] at hend ⊢
    -- its name was given out before, so that it was open all the time
    have hopen : (x.useAll uses).store.IsOpen u := by
      refine (notEnded_of_use (.inl hend)).resolve_right (Nat.not_le.mpr ?_)
      exact (hs.lt_opened u ho).trans_le (opened_le_useAll x uses)
    obtain ⟨hunit, hcommitted⟩ := ih hopen
    rcases entries_use_cases hend with ⟨he, hu⟩ | ⟨_, new, -, -, he, hu⟩ | ⟨v, -, -, -, he, hu⟩ <;>
      rw [he, hu]
    · exact ⟨hunit, hcommitted⟩
    · exact ⟨hunit.trans (List.prefix_append _ _), hcommitted⟩
    · exact ⟨hunit, hcommitted.trans (List.prefix_append _ _)⟩

/-! ## Commits that fail -/

/-- Another unit of work committed one of the keys that a unit had written by then. -/
def Overtaken (uses : List Use) (u : UnitId) : Prop :=
  ∃ before v after, uses = before ++ .access (.call (.commit v)) :: after ∧ v ≠ u ∧
    let s := ((fresh [] [] 0).useAll before).store
    (∃ s', s.respond (.commit v) = .replied (.ok ()) s') ∧
    ∃ e ∈ (s.unit u).entries, ∃ e' ∈ (s.unit v).entries, e'.key = e.key

theorem Overtaken.concat {uses : List Use} (h : Overtaken uses u) (e : Use) :
    Overtaken (uses ++ [e]) u := by
  obtain ⟨before, v, after, rfl, hv⟩ := h
  exact ⟨before, v, after ++ [e], by simp, hv⟩

/-- What a unit of work has written has keys of its own, and a committed entry with one of them came from
a unit that was faster. -/
theorem overtaken_of_taken (uses : List Use) (u : UnitId) :
    let s := ((fresh [] [] 0).useAll uses).store
    ((s.unit u).entries.map Entry.key).Nodup ∧
      ∀ e ∈ (s.unit u).entries, s.Taken e.key → Overtaken uses u := by
  intro s
  induction uses using List.reverseRecOn with
  | nil => exact ⟨List.nodup_nil, by simp [s, fresh, useAll, unit]⟩
  | append_singleton uses f ih =>
    obtain ⟨hnodup, hovertaken⟩ := ih
    simp only [s, useAll_concat]
    generalize hx : (fresh [] [] 0).useAll uses = x at hnodup hovertaken ⊢
    by_cases ho : (x.use f).store.IsOpen u
    · rcases entries_use_cases ho with
        ⟨he, hu⟩ | ⟨drafts, new, haccepts, rfl, he, hu⟩ | ⟨v, rfl, hv, hr, he, hu⟩ <;> rw [hu]
      · refine ⟨hnodup, fun e hmem htaken => (hovertaken e hmem ?_).concat f⟩
        rwa [Taken, he] at htaken
      · refine ⟨?_, fun e hmem htaken => ?_⟩
        · rw [List.map_append, ← map_key_toDraft new]
          exact haccepts.nodup hnodup
        · rw [Taken, he] at htaken
          rcases List.mem_append.mp hmem with hmem | hmem
          · exact (hovertaken e hmem htaken).concat f
          · have hdraft : e.toDraft ∈ new.map (·.toDraft) := List.mem_map_of_mem hmem
            exact absurd htaken (haccepts.not_taken hdraft)
      · refine ⟨hnodup, fun e hmem htaken => ?_⟩
        rw [Taken, he] at htaken
        obtain ⟨e', hmem', hkey⟩ := htaken
        rcases List.mem_append.mp hmem' with hmem' | hmem'
        · exact (hovertaken e hmem ⟨e', hmem', hkey⟩).concat _
        · refine ⟨uses, v, [], rfl, hv, ?_⟩
          rw [hx]
          exact ⟨⟨_, hr⟩, e, hmem, e', hmem', hkey⟩
    · rw [unit_of_not_isOpen ho]
      exact ⟨List.nodup_nil, by simp⟩

theorem useAll_append (x : Usage) (before after : List Use) :
    x.useAll (before ++ after) = (x.useAll before).useAll after := by
  simp [useAll]

theorem use_of_respond {c : Call} {r : c.Reply} {s' : Store}
    (ho : ∀ v, c.unit? = some v → x.store.IsOpen v)
    (hr : x.store.respond c = .replied r s') : (x.use (.access (.call c))).store = s' := by
  have hadmits : x.store.Admits (.call c) := ho
  simp only [use, step, if_pos hadmits, call, hr]

theorem taken_of_overtaken {uses : List Use} (h : Overtaken uses u)
    (ho : ((fresh [] [] 0).useAll uses).store.IsOpen u) :
    ∃ e ∈ (((fresh [] [] 0).useAll uses).store.unit u).entries,
      ((fresh [] [] 0).useAll uses).store.Taken e.key := by
  obtain ⟨before, v, after, rfl, hv, ⟨s', hr⟩, e, he, e', he', hkey⟩ := h
  have hs := (integral_useAll before).1
  rw [useAll_append] at ho ⊢
  generalize (fresh [] [] 0).useAll before = x at hs hr he he' ho ⊢
  have hopen : x.store.IsOpen u := isOpen_of_mem_entries he
  have hnext : (x.use (.access (.call (.commit v)))).store = s' := by
    refine use_of_respond (fun w hw => ?_) hr
    cases hw
    exact isOpen_of_mem_entries he'
  obtain ⟨hunit, -⟩ := prefix_useAll hs hopen ho
  refine ⟨e, hunit.subset he, ?_⟩
  have hopen' : s'.IsOpen u := by
    refine ((Told.answered hr).keeps ?_ hopen).isOpen hopen
    exact fun hvu => hv (Option.some.inj hvu)
  change ((x.use (.access (.call (.commit v)))).useAll after).store.Taken e.key
  rw [← hnext] at hopen'
  obtain ⟨-, hcommitted⟩ := prefix_useAll (sound_use hs _) hopen' ho
  refine ⟨e', hcommitted.subset ?_, hkey⟩
  rw [hnext, (Told.answered hr).commit.2, entries_close]
  exact List.mem_append_right _ he'

theorem respond_commit_cases (uses : List Use) (ho : ((fresh [] [] 0).useAll uses).store.IsOpen u) :
    let s := ((fresh [] [] 0).useAll uses).store
    (¬Overtaken uses u ∧ s.respond (.commit u) = .replied (.ok ()) (s.committed u)) ∨
      (Overtaken uses u ∧
        s.respond (.commit u) = .replied (.error (.conflict .commit)) (s.close u)) := by
  intro s
  obtain ⟨hnodup, hovertaken⟩ := overtaken_of_taken uses u
  by_cases h : Overtaken uses u
  · obtain ⟨e, he, htaken⟩ := taken_of_overtaken h ho
    have hnot : ¬s.Committable (s.unit u) := fun hc => hc.2 e he htaken
    exact .inr ⟨h, by rw [respond, commit, if_neg hnot]⟩
  · have hc : s.Committable (s.unit u) := ⟨hnodup, fun e he ht => h (hovertaken e he ht)⟩
    exact .inl ⟨h, respond_commit_of_committable hc⟩

/-- Whatever units of work have done with an empty store in any order, appending to an open unit is refused
exactly if some draft has the key of an earlier one, of an entry of the unit or of a committed entry. Then
nothing changes but the last key given out, by the number of drafts before the first such one; else
the drafts follow what the unit has written, under the next keys in their order. A commit is refused
exactly if another unit has committed a key after this one had written it, and leaves nothing of the unit. -/
theorem conflicts (uses : List Use) (u : UnitId) :
    let s := ((fresh [] [] 0).useAll uses).store
    s.IsOpen u →
      (∀ drafts,
        ((∃ s', s.respond (.append u drafts) = .replied (.error (.conflict .append)) s') ↔
          ∃ before d, before ++ [d] <+: drafts ∧ s.Offends u before d) ∧
        (∀ before d, before ++ [d] <+: drafts → s.Accepts u before → s.Offends u before d →
          s.respond (.append u drafts) = .replied (.error (.conflict .append))
            { s with lastKey := s.lastKey + before.length }) ∧
        (s.Accepts u drafts → ∃ new, new.map (·.toDraft) = drafts ∧
          new.map (·.id.value) = (List.range' (s.lastKey + 1) drafts.length).map Int.ofNat ∧
          s.respond (.append u drafts) = .replied (.ok ()) (s.extended u new) ∧
          ((s.extended u new).unit u).entries = (s.unit u).entries ++ new)) ∧
      ((∃ s', s.respond (.commit u) = .replied (.error (.conflict .commit)) s') ↔ Overtaken uses u) ∧
      ∀ e s', s.respond (.commit u) = .replied (.error e) s' →
        s'.rows = s.rows ∧ s'.entries = s.entries ∧ ¬s'.IsOpen u := by
  intro s ho
  refine ⟨fun drafts => ⟨?_, ?_, ?_⟩, ?_, ?_⟩
  · rw [respond]
    rcases s.append_cases_accepts u drafts with
      ⟨haccepts, _, -, -, he⟩ | ⟨before, d, hinit, -, hoffends, he⟩ <;> rw [he]
    · refine iff_of_false ?_ ?_
      · rintro ⟨s', h⟩
        cases h
      · rintro ⟨before, d, hinit, hoffends⟩
        exact haccepts before d hinit hoffends
    · exact iff_of_true ⟨_, rfl⟩ ⟨before, d, hinit, hoffends⟩
  · intro before d hinit haccepts hoffends
    rw [respond, append_of_first hinit haccepts hoffends]
  · intro haccepts
    rcases s.append_cases_accepts u drafts with
      ⟨-, new, hdrafts, hids, he⟩ | ⟨before, d, hinit, -, hoffends, -⟩
    · exact ⟨new, hdrafts, hids, by rw [respond, he], unit_extended ho⟩
    · exact absurd hoffends (haccepts before d hinit)
  · rcases respond_commit_cases uses ho with ⟨hnot, he⟩ | ⟨hovertaken, he⟩ <;> rw [he]
    · refine iff_of_false ?_ hnot
      rintro ⟨s', h⟩
      cases h
    · exact iff_of_true ⟨_, rfl⟩ hovertaken
  · intro e s' hr
    have hsame := (Told.answered hr).same rfl
    rcases respond_commit_cases uses ho with ⟨-, he⟩ | ⟨-, he⟩ <;> rw [he] at hr <;> cases hr
    exact ⟨hsame.1, hsame.2, fun h => (isOpen_close.mp h).1 rfl⟩

def opening (sequence : SequenceNumber) : Draft :=
  (⟨System.txA, System.epoch⟩ : Request).draft .standard System.idA sequence (.opened System.ten)

/-- Two units of work have written an entry of the same account and number, and one has committed. -/
def raced : List Use :=
  [.access (.call .openUnit), .access (.call .openUnit),
    .access (.call (.append ⟨0⟩ [opening .first])), .access (.call (.append ⟨1⟩ [opening .first])),
    .access (.call (.commit ⟨0⟩))]

theorem conflicts_raced :
    let s := ((fresh [] [] 0).useAll raced).store
    s.IsOpen ⟨1⟩ ∧
    s.respond (.append ⟨1⟩ [opening .second, opening .first]) =
      .replied (.error (.conflict .append)) { s with lastKey := s.lastKey + 1 } ∧
    ∃ s', s.respond (.commit ⟨1⟩) = .replied (.error (.conflict .commit)) s' := by
  intro s
  have ho : s.IsOpen ⟨1⟩ := by decide +kernel
  obtain ⟨happend, hcommit, -⟩ := conflicts raced ⟨1⟩ ho
  have haccepts : s.Accepts ⟨1⟩ ([] ++ [opening .second]) :=
    accepts_concat.mpr ⟨accepts_nil _ _, by decide +kernel⟩
  refine ⟨ho, ?_, hcommit.mpr ⟨raced.dropLast, ⟨0⟩, [], rfl, by decide, ⟨_, rfl⟩, by decide +kernel⟩⟩
  exact (happend _).2.1 [opening .second] (opening .first) (List.prefix_refl _) haccepts
    (by decide +kernel)

end Usage

end Bookkeeping
