import Bookkeeping.Text.Natural

/-! # Refusals

A restricted type accepts only some raw values. A refusal names the type and the rule that the raw
value breaks.
-/
namespace Bookkeeping
open Bookkeeping.Text

inductive Refusal.Rule where
  | greater (bound : Nat)
  | atLeast (bound : Nat)
  | atMost (bound : Nat)
  | notEmpty
  | lengthAtMost (bound : Nat)
  | predicate
  deriving DecidableEq, Repr

/-- A type together with the rule of it that was broken. -/
structure Refusal where
  subject : String
  rule : Refusal.Rule
  deriving DecidableEq, Repr

def Refusal.Rule.complaint : Refusal.Rule → String
  | .greater n => " is too small. The value must be greater than " ++ naturalText n ++ "."
  | .atLeast n => " is too small. The value must be greater or equal to " ++ naturalText n ++ "."
  | .atMost n => " is too big. The value must be less or equal to " ++ naturalText n ++ "."
  | .notEmpty => " is empty."
  | .lengthAtMost n =>
    " is too long: the maximum valid length is " ++ naturalText n ++ " characters."
  | .predicate => " failed the predicate test."

def Refusal.message (r : Refusal) : String := r.subject ++ r.rule.complaint

/-- The wording of a refusal met while reading data. -/
def Refusal.readingMessage (r : Refusal) : String :=
  r.message ++ " Expected valid " ++ r.subject

end Bookkeeping
