import RepoAtlas.Failure
import RepoAtlas.Number.Binary64

/-!
Points in time as text: the date and the time of day in universal time.
-/
namespace RepoAtlas.Timestamp

/-- A count with zeros in front up to a width. -/
def padded (width n : Nat) : String :=
  let digits := Nat.toDigits 10 n
  String.ofList (List.replicate (width - digits.length) '0' ++ digits)

/--
Year, month and day of a day, counted from the first of January 1970. The count
goes by eras of 400 years that start in March, so that leap days come last.
-/
def dateOfDay (day : Int) : Int × Nat × Nat :=
  let shifted := day + 719468
  let era := shifted.fdiv 146097
  let dayOfEra := (shifted - era * 146097).toNat
  let yearOfEra := (dayOfEra - dayOfEra / 1460 + dayOfEra / 36524 - dayOfEra / 146096) / 365
  let dayOfYear := dayOfEra - (365 * yearOfEra + yearOfEra / 4 - yearOfEra / 100)
  let shiftedMonth := (5 * dayOfYear + 2) / 153
  let dayOfMonth := dayOfYear - (153 * shiftedMonth + 2) / 5 + 1
  let month := if shiftedMonth < 10 then shiftedMonth + 3 else shiftedMonth - 9
  let year := (yearOfEra : Int) + era * 400 + (if month ≤ 2 then 1 else 0)
  (year, month, dayOfMonth)

/-- Whole microseconds since 1970, rounded to the nearest, a half to the even one. -/
def microseconds (seconds : Binary64) : Option Int :=
  (seconds.truncate?).bind fun whole =>
    match (seconds.add (.ofInt (-whole))).mul (.ofInt 1000000) with
    | .finite negative m e =>
      let rounded := Binary64.scaledDiv m 1 (-e)
      some (whole * 1000000 + (if negative then -(rounded : Int) else rounded))
    | _ => none

/-- A point in time by the calendar and the clock. -/
structure CivilTime where
  year : Nat
  month : Nat
  day : Nat
  /-- The second of the day. -/
  second : Nat
  microsecond : Nat
deriving Repr, DecidableEq, Inhabited

/-- The point in time that lies some seconds after 1970. Years have four digits. -/
def civil (seconds : Binary64) : Except Unexpected CivilTime :=
  match microseconds seconds with
  | none => .error ⟨"OverflowError", "timestamp out of range for platform time_t"⟩
  | some us =>
    let second := us.fdiv 1000000
    let day := second.fdiv 86400
    let (year, month, dayOfMonth) := dateOfDay day
    if year < 1 || 9999 < year then .error ⟨"ValueError", s!"year {year} is out of range"⟩
    else .ok {
      year := year.toNat, month, day := dayOfMonth, second := (second - day * 86400).toNat
      microsecond := (us - second * 1000000).toNat }

namespace CivilTime

def dateText (t : CivilTime) : String :=
  padded 4 t.year ++ "-" ++ padded 2 t.month ++ "-" ++ padded 2 t.day

def clockText (t : CivilTime) : String :=
  padded 2 (t.second / 3600) ++ ":" ++ padded 2 (t.second / 60 % 60) ++ ":" ++
    padded 2 (t.second % 60)

end CivilTime

/-- The text of a time in seconds since 1970. -/
def text (seconds : Binary64) : Except Unexpected String :=
  (civil seconds).map fun t =>
    t.dateText ++ "T" ++ t.clockText ++
      (if t.microsecond == 0 then "" else "." ++ padded 6 t.microsecond) ++ "+00:00"

/-- The text of a time in a log. -/
def logText (seconds : Binary64) : String :=
  match civil seconds with
  | .ok t => t.dateText ++ " " ++ t.clockText ++ "," ++ padded 3 (t.microsecond / 1000)
  | .error cause => cause.message

end RepoAtlas.Timestamp
