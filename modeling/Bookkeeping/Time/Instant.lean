import Bookkeeping.Text.Natural
import Bookkeeping.Time.Calendar

/-! # Instants

A point in time to the nanosecond, counted from 1970-01-01T00:00:00Z. A leap second is the second
half of a two-second long second: its nanoseconds start at one billion.
-/
namespace Bookkeeping.Time
open Bookkeeping.Text

/-- Whole seconds since 1970 and the nanoseconds after them. -/
structure Instant where
  seconds : Int
  nanos : Nat
  nanos_lt : nanos < 2000000000
  deriving DecidableEq

namespace Instant

def nanosPerSecond : Nat := 1000000000

/-- The first second that has a date, in the year −262143. -/
def firstSecond : Int := -8334601228800

def lastSecond : Int := 8210266876799

def ofUnix? (seconds : Int) (nanos : Nat) : Option Instant :=
  if h : firstSecond ≤ seconds ∧ seconds ≤ lastSecond ∧ nanos < 1000000000 then
    some ⟨seconds, nanos, by omega⟩
  else none

def toNanos (t : Instant) : Int := t.seconds * nanosPerSecond + t.nanos

def ofNanos (n : Int) : Instant where
  seconds := n / 1000000000
  nanos := (n % 1000000000).toNat
  nanos_lt := by omega

def ofMicros (n : Int) : Instant := ofNanos (n * 1000)

def secondsPerDay : Int := 86400

def secondOfDay (t : Instant) : Nat := (t.seconds % secondsPerDay).toNat

/-- Order in time: by the second, and within it by what follows. -/
instance : LE Instant where
  le a b := a.seconds < b.seconds ∨ a.seconds = b.seconds ∧ a.nanos ≤ b.nanos

instance (a b : Instant) : Decidable (a ≤ b) :=
  inferInstanceAs (Decidable (a.seconds < b.seconds ∨ a.seconds = b.seconds ∧ a.nanos ≤ b.nanos))

theorem le_refl (a : Instant) : a ≤ a := .inr ⟨rfl, Nat.le_refl _⟩

theorem le_trans {a b c : Instant} (hab : a ≤ b) (hbc : b ≤ c) : a ≤ c := by
  rcases hab with hab | ⟨hab, hab'⟩
  · rcases hbc with hbc | ⟨hbc, -⟩
    · exact .inl (Int.lt_trans hab hbc)
    · exact .inl (hbc ▸ hab)
  · rcases hbc with hbc | ⟨hbc, hbc'⟩
    · exact .inl (hab ▸ hbc)
    · exact .inr ⟨hab.trans hbc, Nat.le_trans hab' hbc'⟩

/-- Seconds that a leap second puts between `b` and `a`: one if the earlier of their times of day,
whatever the dates, is within a leap second. -/
def leapSeconds (a b : Instant) : Int :=
  if b.secondOfDay < a.secondOfDay ∧ nanosPerSecond ≤ b.nanos then 1
  else if a.secondOfDay < b.secondOfDay ∧ nanosPerSecond ≤ a.nanos then -1
  else 0

/-- Nanoseconds from `b` to `a`. Around a leap second this may be negative though `b ≤ a`. -/
def since (a b : Instant) : Int := a.toNanos - b.toNanos + a.leapSeconds b * nanosPerSecond

theorem since_eq {a b : Instant} (ha : a.nanos < nanosPerSecond) (hb : b.nanos < nanosPerSecond) :
    a.since b = a.toNanos - b.toNanos := by
  have hleap : a.leapSeconds b = 0 := by
    rw [leapSeconds, if_neg (by omega), if_neg (by omega)]
  rw [since, hleap]
  omega

def date (t : Instant) : CivilDate := .ofDays (t.seconds / secondsPerDay)

/-- Years of four digits stand alone; others have a sign and at least four digits. -/
def yearText (year : Int) : String :=
  if 0 ≤ year ∧ year ≤ 9999 then paddedText 4 year.toNat
  else (if year < 0 then "-" else "+") ++ paddedText 4 year.natAbs

def dateText (t : Instant) : String :=
  yearText t.date.year ++ "-" ++ paddedText 2 t.date.month.toNat ++ "-" ++
    paddedText 2 t.date.day.toNat

/-- No digits, or 3, 6 or 9 of them after a point: the fewest that are exact. -/
def fractionText (nanos : Nat) : String :=
  if nanos = 0 then ""
  else if nanos % 1000000 = 0 then "." ++ paddedText 3 (nanos / 1000000)
  else if nanos % 1000 = 0 then "." ++ paddedText 6 (nanos / 1000)
  else "." ++ paddedText 9 nanos

/-- Hour, minute and second; a leap second is number 60. -/
def clockText (t : Instant) : String :=
  let s := t.secondOfDay
  let leap := t.nanos / nanosPerSecond
  paddedText 2 (s / 3600) ++ ":" ++ paddedText 2 (s / 60 % 60) ++ ":" ++
    paddedText 2 (s % 60 + leap) ++ fractionText (t.nanos % nanosPerSecond)

def text (t : Instant) : String := t.dateText ++ "T" ++ t.clockText ++ "Z"

def messageText (t : Instant) : String := t.dateText ++ " " ++ t.clockText ++ " UTC"

end Instant

end Bookkeeping.Time
