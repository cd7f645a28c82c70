import Bookkeeping.PowerOfTen
import Bookkeeping.Text.Natural

/-! # Durations

A span of time in nanoseconds. It is written in the largest unit that is not above it, with the
digits after the point that are needed.
-/
namespace Bookkeeping.Time
open Bookkeeping.Text

structure Duration where
  nanos : Nat
  deriving DecidableEq, Repr

namespace Duration

def ofMillis (n : Nat) : Duration := ⟨n * 1000000⟩

def ofSeconds (n : Nat) : Duration := ⟨n * 1000000000⟩

/-- Digits after the point, without zeros at the end. -/
def fractionText (width n : Nat) : String :=
  if n = 0 then ""
  else
    let digits := List.replicate (width - (Nat.toDigits 10 n).length) '0' ++ Nat.toDigits 10 n
    "." ++ String.ofList (digits.reverse.dropWhile (· == '0')).reverse

/-- The span in units of `10 ^ width` nanoseconds. -/
def inUnit (d : Duration) (width : Nat) : String :=
  naturalText (d.nanos / pow10 width) ++ fractionText width (d.nanos % pow10 width)

def text (d : Duration) : String :=
  if pow10 9 ≤ d.nanos then d.inUnit 9 ++ "s"
  else if pow10 6 ≤ d.nanos then d.inUnit 6 ++ "ms"
  else if pow10 3 ≤ d.nanos then d.inUnit 3 ++ "µs"
  else d.inUnit 0 ++ "ns"

end Duration

end Bookkeeping.Time
