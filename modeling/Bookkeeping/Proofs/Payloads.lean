import Bookkeeping.Entry
import Bookkeeping.Proofs.DecimalText

/-! # Events survive their payloads

What is stored of an event is its kind and its payload, and both together give the event back. The
first field of each kind occurs in no payload of another kind, so under a wrong kind a payload is
refused for want of that field.
-/
namespace Bookkeeping
open Bookkeeping.Json

theorem Json.readDecimal_eq_ok {v : Json} {a : Decimal} (h : decimal? v = some a) :
    readDecimal v = .ok a := by
  simp only [readDecimal, h]

namespace Amount

theorem readDecimal_toJson (a : Amount) : readDecimal a.toJson = .ok a.value := by
  apply readDecimal_eq_ok
  rw [toJson, decimal?, text, Decimal.parse_text]
  rfl

theorem ofJson_toJson (a : Amount) : Amount.ofJson a.toJson = .ok a :=
  readAccepted_eq_ok a.readDecimal_toJson a.accept_value

end Amount

namespace Event

theorem readPayload_payload (e : Event) : readPayload e.kind e.payload = .ok e := by
  cases e <;>
    simp [readPayload, kind, payload, Record.read, Record.checkMembers, Record.checkMember,
      Record.collect, member?, readString, Amount.ofJson_toJson, AccountId.ofJson_toJson,
      Except.map, bind, Except.bind, pure, Except.pure]

theorem decode_payload (e : Event) : decode e.kind e.payload = .ok e := by
  rw [decode, readPayload_payload]

end Event

namespace Json.Record

/-- An object whose known members can all be read still lacks its first field. -/
theorem read_lacking {name : String} {f : Field} {fs : List Field} {members : Members}
    (hread : checkMembers (f :: fs) members = .ok ()) (hf : member? f.name members = none) :
    read name (f :: fs) (.object members) = .error (.missingField f.name) := by
  simp only [read, hread, collect, hf, bind, Except.bind]

end Json.Record

namespace Event

def Kind.ownField : Kind → String
  | .opening => "initial_balance"
  | .deposit => "source"
  | .debit => "destination_account_id"
  | .credit => "source_account_id"

theorem readPayload_of_ne {k : Kind} {e : Event} (h : k ≠ e.kind) :
    readPayload k e.payload = .error (.missingField k.ownField) := by
  cases k <;> cases e <;>
    first
    | exact absurd rfl h
    | simp only [readPayload, payload]
      rw [Record.read_lacking]
      · rfl
      · simp [Record.checkMembers, Record.checkMember, Amount.ofJson_toJson, Except.map, bind,
          Except.bind]
      · simp [member?]

/-- A payload gives its event back, scale included, under the kind of that event and under no
other. -/
theorem decode_payload_of_kind (k : Kind) (e : Event) :
    decode k e.payload =
      if k = e.kind then .ok e else .error (.decode (.payload k (.missingField k.ownField))) := by
  by_cases h : k = e.kind
  · rw [if_pos h, h, decode_payload]
  · rw [if_neg h, decode, readPayload_of_ne h]

end Event

theorem Draft.event_eq_ok {d : Draft} {e : Event} (hk : d.kind = e.kind)
    (hp : d.payload = e.payload) : d.event = .ok e := by
  rw [event, hk, hp, Event.decode_payload]

end Bookkeeping
