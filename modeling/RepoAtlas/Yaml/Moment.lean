import RepoAtlas.Failure

/-!
Dates and points in time as YAML writes them.
-/
namespace RepoAtlas.Yaml

/-- A time of day, with its distance from universal time in minutes. -/
structure TimeOfDay where
  hour : Nat
  minute : Nat
  second : Nat
  microsecond : Nat := 0
  offset : Option Int := none
deriving Repr, DecidableEq, Inhabited

/-- A date, or a date with a time of day; it need not exist. -/
structure Moment where
  year : Nat
  month : Nat
  day : Nat
  time : Option TimeOfDay := none
  /-- Whether month and day have two digits each. -/
  wide : Bool := true
deriving Repr, DecidableEq, Inhabited

namespace Moment

def value (digits : List Char) : Nat :=
  digits.foldl (fun n c => n * 10 + (c.toNat - 48)) 0

/-- At least `least` and at most `most` digits. -/
def digits? (least most : Nat) (s : List Char) : Option (List Char × List Char) :=
  let run := (s.take most).takeWhile Char.isDigit
  if run.length < least then none else some (run, s.drop run.length)

/-- Digits that follow a mark. -/
def afterMark? (mark : Char) (least most : Nat) : List Char → Option (List Char × List Char)
  | c :: rest => if c == mark then digits? least most rest else none
  | [] => none

def isSpace (c : Char) : Bool :=
  c == ' ' || c == '\t'

/-- The distance from universal time at the end of a moment. -/
def offset? (s : List Char) : Option (Option Int) :=
  match s.dropWhile isSpace with
  | [] => if s.isEmpty then some none else none
  | ['Z'] => some (some 0)
  | sign :: rest =>
    if sign == '+' || sign == '-' then do
      let (hours, rest) ← digits? 1 2 rest
      let minutes ← if rest.isEmpty then some [] else do
        let (minutes, rest) ← afterMark? ':' 2 2 rest
        if rest.isEmpty then some minutes else none
      let total : Int := value hours * 60 + value minutes
      some (some (if sign == '-' then -total else total))
    else none

/-- The time of day at the end of a moment. -/
def time? (s : List Char) : Option TimeOfDay := do
  let rest ← match s with
    | 'T' :: rest => some rest
    | 't' :: rest => some rest
    | c :: rest => if isSpace c then some (rest.dropWhile isSpace) else none
    | [] => none
  let (hour, rest) ← digits? 1 2 rest
  let (minute, rest) ← afterMark? ':' 2 2 rest
  let (second, rest) ← afterMark? ':' 2 2 rest
  let (fraction, rest) := match rest with
    | '.' :: more => (more.takeWhile Char.isDigit, more.dropWhile Char.isDigit)
    | _ => ([], rest)
  let offset ← offset? rest
  let six := (fraction ++ List.replicate 6 '0').take 6
  some { hour := value hour, minute := value minute, second := value second
         microsecond := value six, offset }

def ofChars? (s : List Char) : Option Moment := do
  let (year, rest) ← digits? 4 4 s
  let (month, rest) ← afterMark? '-' 1 2 rest
  let (day, rest) ← afterMark? '-' 1 2 rest
  let date : Moment :=
    { year := value year, month := value month, day := value day
      wide := month.length == 2 && day.length == 2 }
  if rest.isEmpty then some date
  else (time? rest).map fun time => { date with time }

def daysIn (year month : Nat) : Nat :=
  if month == 2 then
    if year % 4 == 0 && (year % 100 != 0 || year % 400 == 0) then 29 else 28
  else if [4, 6, 9, 11].contains month then 30
  else 31

/-- A distance of days and seconds, as messages show it. -/
def shownDistance (minutes : Int) : String :=
  let days := minutes.fdiv 1440
  let seconds := (minutes - days * 1440) * 60
  let parts := (if days == 0 then [] else [s!"days={days}"]) ++
    (if seconds == 0 then [] else [s!"seconds={seconds}"])
  "datetime.timedelta(" ++ ", ".intercalate parts ++ ")"

/-- The wording of what makes a moment one that does not exist. -/
def problem? (m : Moment) : Option String :=
  let distance := m.time.bind TimeOfDay.offset |>.getD 0
  if 1440 ≤ distance.natAbs then
    some ("offset must be a timedelta strictly between -timedelta(hours=24) and " ++
      "timedelta(hours=24), not " ++ shownDistance distance)
  else if m.year == 0 then some "year 0 is out of range"
  else if m.month < 1 || 12 < m.month then some "month must be in 1..12"
  else if m.day < 1 || daysIn m.year m.month < m.day then some "day is out of range for month"
  else
    m.time.bind fun t =>
      if 23 < t.hour then some "hour must be in 0..23"
      else if 59 < t.minute then some "minute must be in 0..59"
      else if 59 < t.second then some "second must be in 0..59"
      else none

/-- The moment, which must exist. -/
def checked (m : Moment) : Except Unexpected Moment :=
  match m.problem? with
  | some text => .error ⟨"ValueError", text⟩
  | none => .ok m

end Moment

end RepoAtlas.Yaml
