import Bookkeeping.Time.Instant

/-! # Clocks

A clock is read again and again. Its readings may be any instants in any order.
-/
namespace Bookkeeping
open Bookkeeping.Time

/-- What a clock shows at each of its readings, which are counted from zero. -/
structure Clock where
  reading : Nat → Instant

namespace Clock

def next (c : Clock) : Instant := c.reading 0

def read (c : Clock) : Instant × Clock := (c.next, ⟨fun n => c.reading (n + 1)⟩)

end Clock

end Bookkeeping
