import Bookkeeping.Proofs.Payloads
import Bookkeeping.Proofs.Results
import Mathlib.Algebra.Group.Int.Defs
import Mathlib.Data.List.Forall2

/-! # What is accepted as a payload

A value states an event of a kind if it is an object with a member for each field of the kind, or an array
of exactly these fields in their order. Nothing else is accepted, and an event that was read from whatever
value has a payload from which it is read again.
-/
namespace Bookkeeping
namespace Json

/-! ## Single values -/

/-- The decimal that a value denotes: a string by its text, an integer as it stands, a floating point
number by its plain digits. -/
inductive Denotes : Json → Decimal → Prop where
  | string {s : String} {d : Decimal} (h : Decimal.parse s = .ok d) : Denotes (.string s) d
  | integer {n : Int} {d : Decimal} (hm : d.mantissa = n) (hs : d.scale = 0) : Denotes (.integer n) d
  | float {x : Binary64} {d : Decimal} (h : Decimal.parse x.plainText = .ok d) : Denotes (.float x) d

theorem decimal?_eq_some_iff {v : Json} {d : Decimal} : decimal? v = some d ↔ Denotes v d := by
  constructor
  · intro h
    cases v with
    | string s => exact .string (toOption_eq_some_iff.mp h)
    | integer n =>
      obtain ⟨hm, hs⟩ := Decimal.ofParts?_eq_some_iff.mp h
      exact .integer hm.symm hs.symm
    | float x => exact .float (toOption_eq_some_iff.mp h)
    | _ => cases h
  · intro h
    cases h with
    | string h => exact toOption_eq_some_iff.mpr h
    | integer hm hs => exact Decimal.ofParts?_eq_some_iff.mpr ⟨hm.symm, hs.symm⟩
    | float h => exact toOption_eq_some_iff.mpr h

theorem readDecimal_eq_ok_iff {v : Json} {d : Decimal} : readDecimal v = .ok d ↔ Denotes v d := by
  rw [← decimal?_eq_some_iff]
  refine ⟨fun h => ?_, readDecimal_eq_ok⟩
  cases hd : decimal? v with
  | some d' =>
    rw [readDecimal_eq_ok hd] at h
    cases h
    rfl
  | none =>
    simp only [readDecimal, hd] at h
    cases v <;> cases h

theorem readString_eq_ok_iff {v : Json} {s : String} : readString v = .ok s ↔ v = .string s := by
  cases v <;> simp [readString]

theorem readAccepted_eq_ok_iff {α β : Type} {read : Reader α} {accept : α → Except Refusal β}
    {v : Json} {b : β} :
    readAccepted read accept v = .ok b ↔ ∃ a, read v = .ok a ∧ accept a = .ok b := by
  refine ⟨fun h => ?_, fun ⟨a, hr, ha⟩ => readAccepted_eq_ok hr ha⟩
  obtain ⟨a, hr, h⟩ := bind_eq_ok_iff.mp h
  cases ha : accept a with
  | error r =>
    rw [ha] at h
    cases h
  | ok b' =>
    rw [ha] at h
    cases h
    exact ⟨a, hr, ha⟩

end Json

open Json

theorem Amount.ofJson_eq_ok_iff {v : Json} {a : Amount} :
    Amount.ofJson v = .ok a ↔ Denotes v a.value := by
  rw [Amount.ofJson, readAccepted_eq_ok_iff]
  constructor
  · rintro ⟨d, hread, haccept⟩
    unfold Amount.accept at haccept
    split at haccept
    · cases haccept
      exact readDecimal_eq_ok_iff.mp hread
    · cases haccept
  · intro h
    exact ⟨a.value, readDecimal_eq_ok_iff.mpr h, a.accept_value⟩

theorem AccountId.ofJson_eq_ok_iff {v : Json} {id : AccountId} :
    AccountId.ofJson v = .ok id ↔ v = .integer id.value := by
  constructor
  · intro h
    obtain ⟨n, hread, haccept⟩ := readAccepted_eq_ok_iff.mp h
    cases v with
    | integer m =>
      simp only [readSigned64] at hread
      split at hread
      · cases hread
        unfold AccountId.accept at haccept
        split at haccept <;> cases haccept
        rfl
      · cases hread
    | _ => cases hread
  · rintro rfl
    exact id.ofJson_toJson

namespace Json

/-! ## Records -/

/-- There is a member of this name, and every such member has a property. An object names each of its
members once. -/
def Has (members : Members) (name : String) (P : Json → Prop) : Prop :=
  (∃ v, (name, v) ∈ members) ∧ ∀ v, (name, v) ∈ members → P v

theorem mem_of_member? {name : String} {members : Members} {v : Json}
    (h : member? name members = some v) : (name, v) ∈ members := by
  induction members with
  | nil => cases h
  | cons m rest ih =>
    obtain ⟨other, w⟩ := m
    simp only [member?] at h
    split at h
    · rename_i he
      cases h
      rw [he]
      exact List.mem_cons_self
    · exact List.mem_cons_of_mem _ (ih h)

theorem exists_member? {name : String} {members : Members} {v : Json} (h : (name, v) ∈ members) :
    ∃ w, member? name members = some w := by
  induction members with
  | nil => simp at h
  | cons m rest ih =>
    obtain ⟨other, w⟩ := m
    simp only [member?]
    split
    · exact ⟨w, rfl⟩
    · rename_i hne
      rcases List.mem_cons.mp h with h | h
      · cases h
        exact absurd rfl hne
      · exact ih h

def Field.Reads (f : Field) (v : Json) : Prop := ∃ a, f.read v = .ok a

namespace Record

variable {members : Members} {fields : List Field} {f : Field} {name : String}

theorem checkMember_eq_ok_iff (h : (fields.map Field.name).Nodup) {v : Json} :
    checkMember name v fields = .ok () ↔ ∀ f ∈ fields, f.name = name → f.Reads v := by
  induction fields with
  | nil => simp [checkMember]
  | cons f fs ih =>
    obtain ⟨hf, hfs⟩ := List.nodup_cons.mp h
    simp only [checkMember, List.forall_mem_cons]
    split
    · rename_i he
      subst he
      have hothers : ∀ g ∈ fs, g.name = f.name → g.Reads v := by
        intro g hg he
        exact absurd (List.mem_map.mpr ⟨g, hg, he⟩) hf
      cases hread : f.read v with
      | ok a => simpa [Except.map, Field.Reads, hread] using hothers
      | error cause => simp [Except.map, Field.Reads, hread]
    · rename_i hne
      rw [ih hfs]
      simp [Ne.symm hne]

theorem checkMembers_eq_ok_iff (h : (fields.map Field.name).Nodup) :
    checkMembers fields members = .ok () ↔
      ∀ f ∈ fields, ∀ v, (f.name, v) ∈ members → f.Reads v := by
  induction members with
  | nil => simp [checkMembers]
  | cons m rest ih =>
    obtain ⟨name, v⟩ := m
    have hbind : checkMembers fields ((name, v) :: rest) = .ok () ↔
        checkMember name v fields = .ok () ∧ checkMembers fields rest = .ok () := by
      rw [checkMembers, bind_eq_ok_iff]
      constructor
      · rintro ⟨_, h⟩
        exact h
      · intro h
        exact ⟨(), h⟩
    rw [hbind, checkMember_eq_ok_iff h, ih]
    constructor
    · rintro ⟨hfirst, hrest⟩ f hf w hw
      rcases List.mem_cons.mp hw with hw | hw
      · cases hw
        exact hfirst f hf rfl
      · exact hrest f hf w hw
    · intro hall
      refine ⟨fun f hf he => ?_, fun f hf w hw => hall f hf w (List.mem_cons_of_mem _ hw)⟩
      exact hall f hf v (by simp [he])

theorem collect_cons_eq_ok_iff {a : f.Value} {r : Record fields} :
    collect members (f :: fields) = .ok (a, r) ↔
      (∃ v, member? f.name members = some v ∧ f.read v = .ok a) ∧
        collect members fields = .ok r := by
  cases hm : member? f.name members with
  | none => simp [collect, hm]
  | some v =>
    cases ha : f.read v with
    | error cause => simp [collect, hm, ha, bind, Except.bind]
    | ok a' =>
      cases hr : collect members fields with
      | error cause => simp [collect, hm, ha, hr, bind, Except.bind]
      | ok r' =>
        simp only [collect, hm, ha, hr, bind, Except.bind, pure, Except.pure]
        constructor
        · intro h
          cases h
          exact ⟨⟨v, rfl, ha⟩, rfl⟩
        · rintro ⟨⟨w, hw, h⟩, h'⟩
          cases hw
          cases ha.symm.trans h
          cases h'
          rfl

theorem collectItems_cons_eq_ok_iff {count position : Nat} {items left : List Json} {a : f.Value}
    {r : Record fields} :
    collectItems name count position (f :: fields) items = .ok ((a, r), left) ↔
      ∃ v rest, items = v :: rest ∧ f.read v = .ok a ∧
        collectItems name count (position + 1) fields rest = .ok (r, left) := by
  cases items with
  | nil => simp [collectItems]
  | cons v rest =>
    simp only [collectItems, bind_eq_ok_iff]
    constructor
    · rintro ⟨a', ha, ⟨r', left'⟩, hr, he⟩
      cases he
      exact ⟨v, rest, rfl, ha, hr⟩
    · rintro ⟨w, rest', he, ha, hr⟩
      cases he
      exact ⟨a, ha, (r, left), hr, rfl⟩

theorem read_eq_ok_iff {v : Json} {r : Record fields} :
    read name fields v = .ok r ↔
      (∃ members, v = .object members ∧ checkMembers fields members = .ok () ∧
        collect members fields = .ok r) ∨
      ∃ items, v = .array items ∧
        collectItems name fields.length 0 fields items = .ok (r, []) := by
  cases v with
  | object members =>
    have hread : read name fields (.object members) = .ok r ↔
        checkMembers fields members = .ok () ∧ collect members fields = .ok r := by
      rw [read, bind_eq_ok_iff]
      constructor
      · rintro ⟨_, h⟩
        exact h
      · intro h
        exact ⟨(), h⟩
    simp [hread]
  | array items =>
    have hread : read name fields (.array items) = .ok r ↔
        collectItems name fields.length 0 fields items = .ok (r, []) := by
      rw [read, bind_eq_ok_iff]
      constructor
      · rintro ⟨⟨r', left⟩, hr, h⟩
        cases left with
        | nil =>
          cases h
          exact hr
        | cons w rest => cases h
      · intro hr
        exact ⟨(r, []), hr, rfl⟩
    simp [hread]
  | _ => simp [read]

/-- A record can be read from an object that has a readable member for each field. -/
theorem exists_collect_iff :
    (∃ r, collect members fields = .ok r) ↔
      ∀ f ∈ fields, ∃ v, member? f.name members = some v ∧ f.Reads v := by
  induction fields with
  | nil => exact ⟨fun _ => by simp, fun _ => ⟨(), rfl⟩⟩
  | cons f fs ih =>
    rw [List.forall_mem_cons, ← ih]
    constructor
    · rintro ⟨⟨a, r⟩, h⟩
      obtain ⟨⟨v, hv, ha⟩, hr⟩ := collect_cons_eq_ok_iff.mp h
      exact ⟨⟨v, hv, a, ha⟩, r, hr⟩
    · rintro ⟨⟨v, hv, a, ha⟩, r, hr⟩
      exact ⟨(a, r), collect_cons_eq_ok_iff.mpr ⟨⟨v, hv, ha⟩, hr⟩⟩

theorem exists_collectItems_iff {count position : Nat} {items : List Json} :
    (∃ r, collectItems name count position fields items = .ok (r, [])) ↔
      List.Forall₂ Field.Reads fields items := by
  induction fields generalizing position items with
  | nil =>
    rw [List.forall₂_nil_left_iff]
    constructor
    · rintro ⟨r, h⟩
      cases h
      rfl
    · rintro rfl
      exact ⟨(), rfl⟩
  | cons f fs ih =>
    rw [List.forall₂_cons_left_iff]
    constructor
    · rintro ⟨⟨a, r⟩, h⟩
      obtain ⟨v, rest, rfl, ha, hr⟩ := collectItems_cons_eq_ok_iff.mp h
      exact ⟨v, rest, ⟨a, ha⟩, ih.mp ⟨r, hr⟩, rfl⟩
    · rintro ⟨v, rest, ⟨a, ha⟩, hrest, rfl⟩
      obtain ⟨r, hr⟩ := ih.mpr hrest
      exact ⟨(a, r), collectItems_cons_eq_ok_iff.mpr ⟨v, rest, rfl, ha, hr⟩⟩

theorem exists_read_iff (h : (fields.map Field.name).Nodup) {v : Json} :
    (∃ r, read name fields v = .ok r) ↔
      (∃ members, v = .object members ∧ ∀ f ∈ fields, Has members f.name f.Reads) ∨
      ∃ items, v = .array items ∧ List.Forall₂ Field.Reads fields items := by
  have hmembers (members : Members) :
      (∀ f ∈ fields, Has members f.name f.Reads) ↔
        checkMembers fields members = .ok () ∧ ∃ r, collect members fields = .ok r := by
    rw [checkMembers_eq_ok_iff h, exists_collect_iff]
    constructor
    · intro hhas
      refine ⟨fun f hf => (hhas f hf).2, fun f hf => ?_⟩
      obtain ⟨⟨v, hv⟩, hall⟩ := hhas f hf
      obtain ⟨w, hw⟩ := exists_member? hv
      exact ⟨w, hw, hall w (mem_of_member? hw)⟩
    · rintro ⟨hall, hfound⟩ f hf
      obtain ⟨v, hv, -⟩ := hfound f hf
      exact ⟨⟨v, mem_of_member? hv⟩, hall f hf⟩
  simp only [read_eq_ok_iff, exists_or, hmembers]
  refine or_congr ?_ ?_
  · constructor
    · rintro ⟨r, members, hv, hcheck, hr⟩
      exact ⟨members, hv, hcheck, r, hr⟩
    · rintro ⟨members, hv, hcheck, r, hr⟩
      exact ⟨r, members, hv, hcheck, hr⟩
  · constructor
    · rintro ⟨r, items, hv, hr⟩
      exact ⟨items, hv, exists_collectItems_iff.mp ⟨r, hr⟩⟩
    · rintro ⟨items, hv, hitems⟩
      obtain ⟨r, hr⟩ := exists_collectItems_iff.mpr hitems
      exact ⟨r, items, hv, hr⟩

end Record
end Json

/-! ## Payloads -/

namespace Event

inductive Part where
  | amount (a : Amount)
  | account (id : AccountId)
  | text (s : String)

inductive Part.StatedBy : Part → Json → Prop where
  | amount {a : Amount} {v : Json} (h : Denotes v a.value) : StatedBy (.amount a) v
  | account (id : AccountId) : StatedBy (.account id) (.integer id.value)
  | text (s : String) : StatedBy (.text s) (.string s)

inductive PartType where
  | amount
  | account
  | text

/-- An amount is greater than zero, an account id is positive and has 64 bits. -/
def PartType.Accepts : PartType → Json → Prop
  | .amount, v => ∃ d, Denotes v d ∧ Decimal.zero < d
  | .account, v => ∃ n : Int, v = .integer n ∧ 1 ≤ n ∧ n ≤ 2 ^ 63 - 1
  | .text, v => ∃ s, v = .string s

/-- The fields of a kind in the order of their declaration. -/
def Kind.fields : Kind → List (String × PartType)
  | .opening => [("initial_balance", .amount)]
  | .deposit => [("source", .text), ("amount", .amount)]
  | .debit => [("destination_account_id", .account), ("amount", .amount)]
  | .credit => [("source_account_id", .account), ("amount", .amount)]

def Kind.Accepts (k : Kind) (v : Json) : Prop :=
  (∃ members, v = .object members ∧ ∀ f ∈ k.fields, Has members f.1 f.2.Accepts) ∨
    ∃ items, v = .array items ∧ List.Forall₂ (fun f w => f.2.Accepts w) k.fields items

def parts : Event → List (String × Part)
  | .opened a => [("initial_balance", .amount a)]
  | .deposited source a => [("source", .text source), ("amount", .amount a)]
  | .debited destination a => [("destination_account_id", .account destination), ("amount", .amount a)]
  | .credited source a => [("source_account_id", .account source), ("amount", .amount a)]

def Part.Within (parts : List (String × Part)) (v : Json) : Prop :=
  (∃ members, v = .object members ∧
      ∀ p ∈ parts, ∃ w, member? p.1 members = some w ∧ p.2.StatedBy w) ∨
    ∃ items, v = .array items ∧ List.Forall₂ (fun p w => p.2.StatedBy w) parts items

/-! ### Fields -/

def PartType.field (name : String) : PartType → Field
  | .amount => amountField name
  | .account => accountField name
  | .text => textField name

@[simp] theorem PartType.name_field (name : String) (t : PartType) : (t.field name).name = name := by
  cases t <;> rfl

theorem PartType.reads_field_iff {name : String} {t : PartType} {v : Json} :
    (t.field name).Reads v ↔ t.Accepts v := by
  cases t with
  | amount =>
    constructor
    · rintro ⟨a, ha⟩
      exact ⟨a.value, Amount.ofJson_eq_ok_iff.mp ha, a.pos⟩
    · rintro ⟨d, hd, hpos⟩
      exact ⟨(⟨d, hpos⟩ : Amount), Amount.ofJson_eq_ok_iff.mpr hd⟩
  | account =>
    constructor
    · rintro ⟨id, hid⟩
      have hpos := id.pos
      have hlt := id.lt
      exact ⟨id.value, AccountId.ofJson_eq_ok_iff.mp hid, by omega, by omega⟩
    · rintro ⟨n, rfl, hpos, hle⟩
      exact ⟨(⟨n, by omega, by omega⟩ : AccountId), AccountId.ofJson_eq_ok_iff.mpr rfl⟩
  | text =>
    constructor
    · rintro ⟨s, hs⟩
      exact ⟨s, readString_eq_ok_iff.mp hs⟩
    · rintro ⟨s, rfl⟩
      exact ⟨s, rfl⟩

def Kind.recordName : Kind → String
  | .opening => "InitialBalancePayload"
  | .deposit => "DepositPayload"
  | .debit => "DebitPayload"
  | .credit => "CreditPayload"

def Kind.record (k : Kind) : List Field := k.fields.map fun f => f.2.field f.1

theorem Kind.nodup_record (k : Kind) : (k.record.map Field.name).Nodup := by
  cases k <;> decide

/-! ### Reading -/

/-- The values of a record are the parts in the same places. -/
inductive Part.Lists : (fields : List Field) → Record fields → List (String × Part) → Prop where
  | nil : Lists [] () []
  | cons {f : Field} {fields : List Field} {a : f.Value} {r : Record fields} {p : Part}
      {ps : List (String × Part)} (first : ∀ w, f.read w = .ok a → p.StatedBy w)
      (rest : Lists fields r ps) : Lists (f :: fields) (a, r) ((f.name, p) :: ps)

theorem Part.Lists.within {name : String} {fields : List Field} {r : Record fields}
    {ps : List (String × Part)} (hl : Lists fields r ps) {v : Json}
    (h : Record.read name fields v = .ok r) : Part.Within ps v := by
  rcases Record.read_eq_ok_iff.mp h with ⟨members, rfl, -, hr⟩ | ⟨items, rfl, hr⟩
  · refine .inl ⟨members, rfl, ?_⟩
    clear h
    induction hl with
    | nil => simp
    | cons first rest ih =>
      obtain ⟨⟨w, hw, ha⟩, hr⟩ := Record.collect_cons_eq_ok_iff.mp hr
      exact List.forall_mem_cons.mpr ⟨⟨w, hw, first w ha⟩, ih hr⟩
  · refine .inr ⟨items, rfl, ?_⟩
    clear h
    generalize 0 = position at hr
    generalize fields.length = count at hr
    induction hl generalizing position items with
    | nil =>
      cases hr
      exact .nil
    | cons first rest ih =>
      obtain ⟨w, left, rfl, ha, hr⟩ := Record.collectItems_cons_eq_ok_iff.mp hr
      exact .cons (first w ha) (ih left _ hr)

theorem exists_readPayload_iff {k : Kind} {v : Json} :
    (∃ e, readPayload k v = .ok e) ↔ ∃ r, Record.read k.recordName k.record v = .ok r := by
  constructor
  · rintro ⟨e, h⟩
    cases k <;> obtain ⟨r, hr, -⟩ := bind_eq_ok_iff.mp h <;> exact ⟨r, hr⟩
  · rintro ⟨r, hr⟩
    cases k <;> exact ⟨_, bind_eq_ok_iff.mpr ⟨r, hr, rfl⟩⟩

theorem within_of_readPayload {k : Kind} {v : Json} {e : Event} (h : readPayload k v = .ok e) :
    e.kind = k ∧ Part.Within e.parts v := by
  have hamount (a : Amount) (w : Json) (hw : Amount.ofJson w = .ok a) : (Part.amount a).StatedBy w :=
    .amount (Amount.ofJson_eq_ok_iff.mp hw)
  have haccount (id : AccountId) (w : Json) (hw : AccountId.ofJson w = .ok id) :
      (Part.account id).StatedBy w := by
    rw [AccountId.ofJson_eq_ok_iff.mp hw]
    exact .account id
  have htext (s : String) (w : Json) (hw : readString w = .ok s) : (Part.text s).StatedBy w := by
    rw [readString_eq_ok_iff.mp hw]
    exact .text s
  cases k with
  | opening =>
    obtain ⟨⟨a, _⟩, hr, he⟩ := bind_eq_ok_iff.mp h
    cases he
    exact ⟨rfl, Part.Lists.within (.cons (hamount a) .nil) hr⟩
  | deposit =>
    obtain ⟨⟨source, a, _⟩, hr, he⟩ := bind_eq_ok_iff.mp h
    cases he
    exact ⟨rfl, Part.Lists.within (.cons (htext source) (.cons (hamount a) .nil)) hr⟩
  | debit =>
    obtain ⟨⟨destination, a, _⟩, hr, he⟩ := bind_eq_ok_iff.mp h
    cases he
    exact ⟨rfl, Part.Lists.within (.cons (haccount destination) (.cons (hamount a) .nil)) hr⟩
  | credit =>
    obtain ⟨⟨source, a, _⟩, hr, he⟩ := bind_eq_ok_iff.mp h
    cases he
    exact ⟨rfl, Part.Lists.within (.cons (haccount source) (.cons (hamount a) .nil)) hr⟩

theorem decode_eq_ok_iff {k : Kind} {v : Json} {e : Event} :
    decode k v = .ok e ↔ readPayload k v = .ok e := by
  rw [decode]
  cases readPayload k v <;> simp

theorem exists_decode_iff {k : Kind} {v : Json} : (∃ e, decode k v = .ok e) ↔ k.Accepts v := by
  have hreads (name : String) (t : PartType) : (t.field name).Reads = t.Accepts := by
    funext v
    exact propext PartType.reads_field_iff
  simp only [decode_eq_ok_iff, exists_readPayload_iff, Record.exists_read_iff k.nodup_record]
  simp only [Kind.record, Kind.Accepts, List.forall_mem_map, List.forall₂_map_left_iff,
    PartType.name_field, hreads]

theorem exists_members_payload (e : Event) :
    ∃ members, e.payload = .object members ∧
      (members.map Prod.fst).Perm (e.kind.fields.map Prod.fst) := by
  cases e with
  | opened => exact ⟨_, rfl, .refl _⟩
  | deposited => exact ⟨_, rfl, .swap _ _ _⟩
  | debited => exact ⟨_, rfl, .swap _ _ _⟩
  | credited => exact ⟨_, rfl, .swap _ _ _⟩

/-- A payload can be read as an event of a kind if and only if the grammar of that kind accepts it. The
event has the parts that it was read from, and its own payload is an object with exactly the fields of the
kind, from which the same event is read again. -/
theorem decodes_exactly (k : Kind) (v : Json) :
    ((∃ e, decode k v = .ok e) ↔ k.Accepts v) ∧
    ∀ e, decode k v = .ok e →
      e.kind = k ∧ Part.Within e.parts v ∧
      (∃ members, e.payload = .object members ∧
        (members.map Prod.fst).Perm (k.fields.map Prod.fst)) ∧
      decode k e.payload = .ok e := by
  refine ⟨exists_decode_iff, fun e h => ?_⟩
  obtain ⟨rfl, hwithin⟩ := within_of_readPayload (decode_eq_ok_iff.mp h)
  exact ⟨rfl, hwithin, e.exists_members_payload, e.decode_payload⟩

/-- A positive number that is too small for a decimal is read as zero, which is no amount. -/
example : decode .opening (.array [.string "0.00000000000000000000000000004"]) =
    .error (.decode (.payload .opening (.refused ⟨Amount.subject, .predicate⟩))) := by
  decide +kernel

end Event

end Bookkeeping
