import Bookkeeping.Json.Reading
import Bookkeeping.Text.Blank

/-! # Identifiers

Account ids, the labels that name transactions and schema versions, and the numbers that order and
key stored entries. A value of these types obeys its rules by construction.
-/
namespace Bookkeeping
open Bookkeeping.Text Bookkeeping.Json

/-- The id of an account: a positive integer of 64 bits. -/
structure AccountId where
  value : Int
  pos : 0 < value
  lt : value < 9223372036854775808
  deriving DecidableEq

namespace AccountId

@[ext] theorem ext {a b : AccountId} (h : a.value = b.value) : a = b := by
  cases a; cases b; simp_all

def subject : String := "AccountId"

def accept (n : Signed64) : Except Refusal AccountId :=
  if h : 0 < n.val then .ok ⟨n.val, h, n.property.2⟩ else .error ⟨subject, .greater 0⟩

instance : LT AccountId where
  lt a b := a.value < b.value

instance : LE AccountId where
  le a b := a.value ≤ b.value

theorem lt_def {a b : AccountId} : a < b ↔ a.value < b.value := Iff.rfl

theorem le_def {a b : AccountId} : a ≤ b ↔ a.value ≤ b.value := Iff.rfl

instance (a b : AccountId) : Decidable (a < b) := decidable_of_iff _ lt_def.symm

instance (a b : AccountId) : Decidable (a ≤ b) := decidable_of_iff _ le_def.symm

def raw (a : AccountId) : Signed64 := ⟨a.value, by have := a.pos; omega, a.lt⟩

theorem accept_raw (a : AccountId) : accept a.raw = .ok a := by
  simp [accept, raw, a.pos]

def text (a : AccountId) : String := integerText a.value

instance : ToString AccountId := ⟨text⟩

def toJson (a : AccountId) : Json := .integer a.value

def ofJson : Reader AccountId := readAccepted readSigned64 accept

theorem readSigned64_toJson (a : AccountId) : readSigned64 a.toJson = .ok a.raw := by
  have h : -9223372036854775808 ≤ a.value ∧ a.value < 9223372036854775808 := a.raw.property
  simp only [toJson, readSigned64, dif_pos h]
  rfl

theorem ofJson_toJson (a : AccountId) : ofJson a.toJson = .ok a :=
  readAccepted_eq_ok a.readSigned64_toJson a.accept_raw

end AccountId

/-- A trimmed text of at least one and at most `limit` characters. -/
structure Label (limit : Nat) where
  text : String
  trimmed : Trimmed text.toList
  nonempty : text ≠ ""
  short : text.toList.length ≤ limit
  deriving DecidableEq

namespace Label

variable {limit : Nat}

@[ext] theorem ext {a b : Label limit} (h : a.text = b.text) : a = b := by
  cases a; cases b; simp_all

instance : ToString (Label limit) := ⟨text⟩

def accept (subject : String) (limit : Nat) (s : String) : Except Refusal (Label limit) :=
  if h : trim s = "" then .error ⟨subject, .notEmpty⟩
  else if h' : (trim s).toList.length ≤ limit then
    .ok ⟨trim s, by simpa [trim] using trimmed_trimList s.toList, h, h'⟩
  else .error ⟨subject, .lengthAtMost limit⟩

theorem accept_text (subject : String) (a : Label limit) :
    accept subject limit a.text = .ok a := by
  have ht : trim a.text = a.text := trim_eq_self a.trimmed
  have hs := a.short
  unfold accept
  simp only [ht, a.nonempty, hs, dite_true, dite_false]

def toJson (a : Label limit) : Json := .string a.text

end Label

abbrev TransactionId := Label 255

namespace TransactionId

def subject : String := "TransactionId"

def accept (s : String) : Except Refusal TransactionId := Label.accept subject 255 s

def ofJson : Reader TransactionId := readAccepted readString accept

theorem ofJson_toJson (t : TransactionId) : ofJson t.toJson = .ok t :=
  readAccepted_eq_ok rfl (Label.accept_text subject t)

end TransactionId

/-- The tag of the form in which an entry's payload is kept. -/
abbrev SchemaVersion := Label 32

namespace SchemaVersion

def subject : String := "SchemaVersion"

def accept (s : String) : Except Refusal SchemaVersion := Label.accept subject 32 s

def ofJson : Reader SchemaVersion := readAccepted readString accept

theorem ofJson_toJson (v : SchemaVersion) : ofJson v.toJson = .ok v :=
  readAccepted_eq_ok rfl (Label.accept_text subject v)

def standard : SchemaVersion :=
  ⟨"v1", by simp [Trimmed, isBlank], by decide, by decide⟩

end SchemaVersion

/-- The position of an entry in the stream of its account, from 1; 0 stands for no entry. -/
structure SequenceNumber where
  value : Nat
  lt : value < 18446744073709551616
  deriving DecidableEq

namespace SequenceNumber

@[ext] theorem ext {a b : SequenceNumber} (h : a.value = b.value) : a = b := by
  cases a; cases b; simp_all

def initial : SequenceNumber := ⟨0, by decide⟩

def ofRaw (n : Unsigned64) : SequenceNumber := ⟨n.val, n.property⟩

/-- The next position; there is none after the last number of 64 bits. -/
def next? (a : SequenceNumber) : Option SequenceNumber :=
  if h : a.value + 1 < 18446744073709551616 then some ⟨a.value + 1, h⟩ else none

theorem next?_eq_some_iff {a b : SequenceNumber} : a.next? = some b ↔ b.value = a.value + 1 := by
  have := b.lt
  unfold next?
  split
  · simp only [Option.some.injEq]
    exact ⟨fun h => h ▸ rfl, fun h => SequenceNumber.ext h.symm⟩
  · simp only [reduceCtorEq, false_iff]; omega

instance : LE SequenceNumber where
  le a b := a.value ≤ b.value

theorem le_def {a b : SequenceNumber} : a ≤ b ↔ a.value ≤ b.value := Iff.rfl

instance (a b : SequenceNumber) : Decidable (a ≤ b) := decidable_of_iff _ le_def.symm

def text (a : SequenceNumber) : String := naturalText a.value

instance : ToString SequenceNumber := ⟨text⟩

def toJson (a : SequenceNumber) : Json := .integer a.value

def ofJson : Reader SequenceNumber := fun v => do return ofRaw (← readUnsigned64 v)

end SequenceNumber

structure EntryId where
  value : Int
  deriving DecidableEq, Repr

namespace EntryId

def text (a : EntryId) : String := integerText a.value

def toJson (a : EntryId) : Json := .integer a.value

def ofJson : Reader EntryId := fun v => do return ⟨(← readSigned64 v).val⟩

end EntryId

end Bookkeeping
