import Bookkeeping.PowerOfTen
import Bookkeeping.Text.Blank
import Bookkeeping.Time.Instant

/-! # Instants read from text

The reader takes the form of RFC 3339 and some looser ones: blanks before numbers and around
separators, numbers with fewer digits, signed years, and `UTC` for the zone. Each number is
checked against its range as soon as it is read, the date as a whole at the end.
-/
namespace Bookkeeping.Time.Rfc3339
open Bookkeeping.Text

inductive Cause where
  | outOfRange
  | impossible
  | invalid
  | tooShort
  | tooLong
  deriving DecidableEq, Repr

def Cause.message : Cause → String
  | .outOfRange => "input is out of range"
  | .impossible => "no possible date and time matching input"
  | .invalid => "input contains invalid characters"
  | .tooShort => "premature end of input"
  | .tooLong => "trailing input"

abbrev Reader := StateT (List Char) (Except Cause)

def skipBlanks : Reader Unit := modify (·.dropWhile isBlank)

def literal (c : Char) : Reader Unit := do
  match ← get with
  | [] => throw .tooShort
  | d :: rest => if d = c then set rest else throw .invalid

/-- Reads at least one digit and at most `limit` of them, giving their number as well. -/
def digits (limit : Nat) : Reader (Nat × Nat) := do
  let found := ((← get).take limit).takeWhile (digit? · |>.isSome)
  if (← get).isEmpty then throw .tooShort
  if found.isEmpty then throw .invalid
  let value := found.foldl (fun n c => n * 10 + (digit? c).getD 0) 0
  if 9223372036854775808 ≤ value then throw .outOfRange
  modify (·.drop found.length)
  return (value, found.length)

def field (low high : Nat) : Reader Nat := do
  skipBlanks
  let (value, _) ← digits 2
  if low ≤ value ∧ value ≤ high then return value else throw .outOfRange

def checkYear (year : Int) : Reader Int :=
  if -2147483648 ≤ year ∧ year < 2147483648 then return year else throw .outOfRange

/-- Reads a year: four digits at most, or a sign and any number of digits. -/
def year : Reader Int := do
  skipBlanks
  match ← get with
  | '-' :: rest => do
    set rest
    let (value, _) ← digits rest.length
    checkYear (-(value : Int))
  | '+' :: rest => do
    set rest
    let (value, _) ← digits rest.length
    checkYear value
  | _ => do
    let (value, _) ← digits 4
    checkYear value

def separator (c : Char) : Reader Unit := do
  skipBlanks
  literal c
  skipBlanks

def civilDate : Reader CivilDate := do
  let year ← year
  separator '-'
  let month ← field 1 12
  separator '-'
  let day ← field 1 31
  return { year, month, day }

def dateEnd : Reader Unit := do
  match ← get with
  | [] => throw .tooShort
  | c :: rest => if c = 't' ∨ c = 'T' ∨ c = ' ' then set rest else throw .invalid

/-- Reads digits after a point as nanoseconds; those past the ninth are skipped. -/
def fraction : Reader Nat := do
  match ← get with
  | '.' :: rest => do
    set rest
    let (value, count) ← digits 9
    modify (·.dropWhile (digit? · |>.isSome))
    return value * pow10 (9 - count)
  | _ => return 0

/-- Reads a time of day: seconds since midnight and nanoseconds. Second 60 is a leap second. -/
def timeOfDay : Reader (Nat × Nat) := do
  let hour ← field 0 23
  separator ':'
  let minute ← field 0 59
  separator ':'
  let second ← field 0 60
  let nanos ← fraction
  skipBlanks
  if second = 60 then return (hour * 3600 + minute * 60 + 59, nanos + 1000000000)
  else return (hour * 3600 + minute * 60 + second, nanos)

/-- Reads two digits. A single character of more than one byte is wrong rather than too short. -/
def digitPair : Reader (Nat × Nat) := do
  match ← get with
  | [] => throw .tooShort
  | [c] => if c.utf8Size < 2 then throw .tooShort else throw .invalid
  | c :: d :: rest =>
    match digit? c, digit? d with
    | some m, some n => do
      set rest
      return (m, n)
    | _, _ => throw .invalid

def offsetSize : Reader Int := do
  let (h, h') ← digitPair
  modify (·.dropWhile fun c => c == ':' || isBlank c)
  let (m, m') ← digitPair
  if 6 ≤ m then throw .outOfRange
  return (h * 10 + h') * 3600 + (m * 10 + m') * 60

def zone : Reader Int := do
  match ← get with
  | [] => throw .tooShort
  | c :: rest => do
    if (rest.take 2).map Char.toUpper = ['T', 'C'] ∧ c.toUpper = 'U' then
      set (rest.drop 2)
      return 0
    if c = 'Z' ∨ c = 'z' then
      set rest
      return 0
    if c = '+' then
      set rest
      return ← offsetSize
    if c = '-' ∨ c = '\u2212' then
      set rest
      return -(← offsetSize)
    throw .invalid

def assemble (date : CivilDate) (second nanos : Nat) (offset : Int) : Except Cause Instant :=
  if date.year < -262143 ∨ 262142 < date.year ∨ ¬date.Exists ∨ 86400 ≤ offset.natAbs then
    .error .outOfRange
  else
    let seconds := date.toDays * 86400 + second - offset
    if seconds < Instant.firstSecond ∨ Instant.lastSecond < seconds then .error .impossible
    else if h : nanos < 2000000000 then .ok ⟨seconds, nanos, h⟩
    else .error .outOfRange

def instant : Reader Instant := do
  let date ← civilDate
  dateEnd
  let (second, nanos) ← timeOfDay
  let offset ← zone
  skipBlanks
  unless (← get).isEmpty do throw .tooLong
  assemble date second nanos offset

def parse (s : String) : Except Cause Instant := instant.run' s.toList

end Bookkeeping.Time.Rfc3339
