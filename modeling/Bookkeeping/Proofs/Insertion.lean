import Bookkeeping.Proofs.Interleaving
import Bookkeeping.Proofs.Results
import Bookkeeping.Sql.Connection
import Mathlib.Algebra.Group.Nat.Defs
import Mathlib.Data.List.Forall2

/-! # One statement for many drafts

The drafts of one append go into one statement, with one group of seven placeholders for each of them.
Its text and its parameters are built side by side; they fit together at every length. Nothing is sent if
some number does not fit its column.
-/
namespace Bookkeeping.Sql

/-- The value of a draft in a column of its table, once its number is signed. -/
def columnOf (d : Draft) (n : Json.Signed64) : String → Option Value
  | "transaction_id" => some (.text d.transaction.text)
  | "sequence_number" => some (.integer n)
  | "aggregate_id" => some (.integer d.account.raw)
  | "aggregate_type" => some (.text d.aggregate.name)
  | "event_type" => some (.text d.kind.name)
  | "event_data" => some (.json d.payload)
  | "version" => some (.text d.version.text)
  | _ => none

def group (numbers : List Nat) : String :=
  "(" ++ commaList (numbers.map fun k => "$" ++ Text.naturalText k) ++ ")"

def Connection.answer (x : Connection) : Except StatementError (List Row) :=
  match x.replies with
  | [] => .ok []
  | r :: _ => r.result

/-! ## Numbers and parameters -/

theorem sequenceValue_of_le {n : SequenceNumber} (h : 2 ^ 63 ≤ n.value) :
    sequenceValue n = .error (.serialization (.sequenceTooLarge n)) := by
  have hlarge : ¬n.value < 9223372036854775808 := by omega
  simp [sequenceValue, hlarge]

theorem exists_sequenceValue {n : SequenceNumber} (h : n.value < 2 ^ 63) :
    ∃ k : Json.Signed64, k.val = n.value ∧ sequenceValue n = .ok (.integer k) := by
  have hsmall : n.value < 9223372036854775808 := h
  exact ⟨⟨n.value, by omega⟩, rfl, by simp [sequenceValue, hsmall]⟩

theorem exists_sequenceValues {drafts : List Draft} (h : ∀ d ∈ drafts, d.sequence.value < 2 ^ 63) :
    ∃ ns : List Json.Signed64,
      List.Forall₂ (fun d n => n.val = d.sequence.value) drafts ns ∧
      drafts.mapM (fun d => sequenceValue d.sequence) = .ok (ns.map .integer) := by
  induction drafts with
  | nil => exact ⟨[], .nil, rfl⟩
  | cons d rest ih =>
    obtain ⟨hd, hrest⟩ := List.forall_mem_cons.mp h
    obtain ⟨n, hn, hvalue⟩ := exists_sequenceValue hd
    obtain ⟨ns, hns, hvalues⟩ := ih hrest
    refine ⟨n :: ns, .cons hn hns, ?_⟩
    rw [List.mapM_cons, hvalue, hvalues]
    rfl

theorem sequenceValues_of_first {before after : List Draft} {d : Draft}
    (hbefore : ∀ d' ∈ before, d'.sequence.value < 2 ^ 63) (hd : 2 ^ 63 ≤ d.sequence.value) :
    (before ++ d :: after).mapM (fun d => sequenceValue d.sequence) =
      .error (.serialization (.sequenceTooLarge d.sequence)) := by
  obtain ⟨ns, -, hvalues⟩ := exists_sequenceValues hbefore
  rw [List.mapM_append, hvalues, List.mapM_cons, sequenceValue_of_le hd]
  rfl

theorem getElem?_draftValues (d : Draft) (n : Json.Signed64) {j : Nat} (hj : j < 7) :
    (draftValues d (.integer n))[j]? = draftColumns[j]?.bind (columnOf d n) := by
  have hcases : j = 0 ∨ j = 1 ∨ j = 2 ∨ j = 3 ∨ j = 4 ∨ j = 5 ∨ j = 6 := by omega
  rcases hcases with rfl | rfl | rfl | rfl | rfl | rfl | rfl <;> rfl

/-- In a list of equal parts the place of an element tells its part and its place there. -/
theorem getElem?_flatten_of_length {α : Type} {size : Nat} {parts : List (List α)}
    (h : ∀ p ∈ parts, p.length = size) {i j : Nat} (hj : j < size) :
    parts.flatten[size * i + j]? = parts[i]?.bind (·[j]?) := by
  induction parts generalizing i with
  | nil => simp
  | cons p rest ih =>
    obtain ⟨hp, hrest⟩ := List.forall_mem_cons.mp h
    rw [List.flatten_cons]
    cases i with
    | zero => simp [List.getElem?_append_left (show j < p.length by omega)]
    | succ i =>
      have hle : p.length ≤ size * (i + 1) + j := by
        rw [Nat.mul_add]
        omega
      have hsub : size * (i + 1) + j - p.length = size * i + j := by
        rw [Nat.mul_add]
        omega
      rw [List.getElem?_append_right hle, hsub, List.getElem?_cons_succ]
      exact ih hrest

/-! ## The text -/

def numbering (count : Nat) : List (List Nat) :=
  (List.range count).map fun i => List.range' (7 * i + 1) 7

theorem flatten_numbering (count : Nat) :
    (numbering count).flatten = List.range' 1 (7 * count) := by
  induction count with
  | zero => rfl
  | succ count ih =>
    have hlast : numbering (count + 1) = numbering count ++ [List.range' (7 * count + 1) 7] := by
      simp [numbering, List.range_succ]
    rw [hlast, List.flatten_append, ih, Nat.mul_add, ← List.range'_append_1, Nat.add_comm 1]
    simp

theorem placeholders_eq (first count : Nat) :
    placeholders first count = group (List.range' first count) := by
  rw [placeholders, group, List.range'_eq_map_range, List.map_map]
  rfl

theorem draftGroups_eq (count : Nat) :
    Statement.draftGroups count = commaList ((numbering count).map group) := by
  simp only [Statement.draftGroups, numbering, placeholders_eq, List.map_map]
  rfl

/-- A statement that inserts drafts. It has a group of placeholders for each of them, numbered through,
and the value of a placeholder is that of a draft in the column at its place. -/
structure Inserts (drafts : List Draft) (s : Statement) : Prop where
  text : ∃ groups : List (List Nat),
    s.text = "INSERT INTO events (" ++ commaList draftColumns ++ ") VALUES " ++
      commaList (groups.map group) ∧
    groups.length = drafts.length ∧ (∀ g ∈ groups, g.length = 7) ∧
    groups.flatten = List.range' 1 (7 * drafts.length)
  count : s.parameters.length = 7 * drafts.length
  value : ∀ i d, drafts[i]? = some d → ∃ n : Json.Signed64, n.val = d.sequence.value ∧
    ∀ j < 7, s.parameters[7 * i + j]? = draftColumns[j]?.bind (columnOf d n)

theorem exists_getElem?_of_forall₂ {α β : Type} {R : α → β → Prop} {as : List α} {bs : List β}
    (h : List.Forall₂ R as bs) {i : Nat} {a : α} (ha : as[i]? = some a) : ∃ b, bs[i]? = some b ∧ R a b := by
  obtain ⟨hi, rfl⟩ := List.getElem?_eq_some_iff.mp ha
  have hi' : i < bs.length := h.length_eq ▸ hi
  exact ⟨bs[i], List.getElem?_eq_getElem hi', h.get hi hi'⟩

theorem exists_inserts {drafts : List Draft} (h : ∀ d ∈ drafts, d.sequence.value < 2 ^ 63) :
    ∃ s, Statement.append drafts = .ok s ∧ Inserts drafts s := by
  obtain ⟨ns, hns, hvalues⟩ := exists_sequenceValues h
  have hlength : ∀ p ∈ drafts.zipWith draftValues (ns.map .integer), p.length = 7 := by
    intro p hp
    obtain ⟨i, hi⟩ := List.mem_iff_getElem?.mp hp
    obtain ⟨d, v, -, -, rfl⟩ := List.getElem?_zipWith_eq_some.mp hi
    rfl
  refine ⟨⟨"INSERT INTO events (" ++ commaList draftColumns ++ ") VALUES " ++
    Statement.draftGroups drafts.length, (drafts.zipWith draftValues (ns.map .integer)).flatten⟩, ?_, ?_⟩
  · simp only [Statement.append, hvalues]
    rfl
  constructor
  · refine ⟨numbering drafts.length, by rw [draftGroups_eq], by simp [numbering], ?_,
      flatten_numbering _⟩
    simp [numbering]
  · have hsizes : (drafts.zipWith draftValues (ns.map .integer)).map List.length =
        List.replicate drafts.length 7 :=
      List.eq_replicate_iff.mpr ⟨by simp [hns.length_eq], List.forall_mem_map.mpr hlength⟩
    simp [List.length_flatten, hsizes, Nat.mul_comm]
  · intro i d hd
    obtain ⟨n, hn, hvalue⟩ := exists_getElem?_of_forall₂ hns hd
    refine ⟨n, hvalue, ?_⟩
    intro j hj
    rw [getElem?_flatten_of_length hlength hj, ← getElem?_draftValues d n hj]
    simp [List.getElem?_zipWith, hd, hn]

/-! ## What is sent and what is answered -/

theorem run_send (x : Connection) (s : Statement) :
    ∃ x', (send s).run x = (x.answer, x') ∧ x'.sent = x.sent ++ [s] := by
  cases h : x.replies with
  | nil =>
    refine ⟨{ x with sent := x.sent ++ [s] }, ?_, rfl⟩
    simp [send, Connection.answer, h]
    rfl
  | cons r rest =>
    refine ⟨{ x with sent := x.sent ++ [s], replies := rest }, ?_, rfl⟩
    simp [send, Connection.answer, h]
    rfl

def appended : Except StatementError (List Row) → Except StoreError Unit
  | .ok _ => .ok ()
  | .error (.reported code message) =>
    if code = "23505" then .error (.conflict .append) else .error (.failure .append (.database message))
  | .error .noRow => .error (.notFound "row")
  | .error (.lost message) => .error (.failure .append (.reported message))

theorem run_done_append (x : Connection) (r : Except StatementError (List Row)) :
    ∃ x', (done .append r).run x = (appended r, x') ∧ x'.sent = x.sent := by
  match r with
  | .ok _ => exact ⟨x, rfl, rfl⟩
  | .error (.reported code message) =>
    by_cases h : code = "23505"
    · subst h
      exact ⟨_, rfl, rfl⟩
    · simp only [done, storeError, appended, uniqueViolation, h, if_false]
      exact ⟨_, rfl, rfl⟩
  | .error .noRow => exact ⟨x, rfl, rfl⟩
  | .error (.lost message) => exact ⟨_, rfl, rfl⟩

def oversized (d : Draft) : Bool := 2 ^ 63 ≤ d.sequence.value

/-- Drafts are appended by one statement, or by none if there are none or some number does not fit. -/
theorem append_inserts (u : UnitId) (drafts : List Draft) (x : Connection) :
    (drafts = [] → (reply (.append u drafts)).run x = (.ok (), x)) ∧
    (∀ d, drafts.find? oversized = some d →
      (reply (.append u drafts)).run x =
        (.error (.serialization (.sequenceTooLarge d.sequence)), x)) ∧
    (drafts ≠ [] → drafts.find? oversized = none →
      ∃ s x', (reply (.append u drafts)).run x = (appended x.answer, x') ∧
        x'.sent = x.sent ++ [s] ∧ Inserts drafts s) := by
  refine ⟨?_, ?_, ?_⟩
  · rintro rfl
    rfl
  · intro d hfirst
    obtain ⟨hd, before, after, rfl, hbefore⟩ := List.find?_eq_some_iff_append.mp hfirst
    have hstatement : Statement.append (before ++ d :: after) =
        .error (.serialization (.sequenceTooLarge d.sequence)) := by
      rw [Statement.append, sequenceValues_of_first (by simpa [oversized] using hbefore)
        (by simpa [oversized] using hd)]
      rfl
    simp [reply, append, hstatement]
    rfl
  · intro hne hnone
    have hfit : ∀ d ∈ drafts, d.sequence.value < 2 ^ 63 := by
      simpa [oversized] using hnone
    obtain ⟨s, hs, hinserts⟩ := exists_inserts hfit
    obtain ⟨x₁, hsend, hsent⟩ := run_send x s
    obtain ⟨x₂, hdone, hsame⟩ := run_done_append x₁ x.answer
    refine ⟨s, x₂, ?_, hsame.trans hsent, hinserts⟩
    simp only [reply, append, hs, List.isEmpty_iff, hne, if_false, StateT.run_bind, hsend]
    exact hdone

def numbered (n : SequenceNumber) : Draft :=
  ⟨System.txA, n, System.idA, .account, .deposit, .null, .standard⟩

/-- Two drafts are refused because the second number does not fit, or inserted together in vain. -/
theorem append_inserts_refused :
    let large : SequenceNumber := ⟨2 ^ 63, by decide⟩
    let rival : Connection := ⟨[⟨.error (.reported "23505" "duplicate key"), false⟩], [], [], [], 0, 0⟩
    (reply (.append ⟨0⟩ [numbered .initial, numbered large])).run rival =
      (.error (.serialization (.sequenceTooLarge large)), rival) ∧
    ∃ s x', (reply (.append ⟨0⟩ [numbered .initial, numbered .initial])).run rival =
        (.error (.conflict .append), x') ∧
      x'.sent = [s] ∧ Inserts [numbered .initial, numbered .initial] s := by
  intro large rival
  exact ⟨(append_inserts ⟨0⟩ [numbered .initial, numbered large] rival).2.1 (numbered large) rfl,
    (append_inserts ⟨0⟩ [numbered .initial, numbered .initial] rival).2.2 (by simp) (by decide)⟩

end Bookkeeping.Sql
