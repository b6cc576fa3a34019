import RepoAtlas.Failure
import RepoAtlas.Text.Trim
import RepoAtlas.Number.Shortest

/-!
Numbers out of text written by hand: white space around them, digits of any
script, and underscores between digits.
-/
namespace RepoAtlas.NumberText

/-- White space around a number. The information separators are none here. -/
def isSpace (c : Char) : Bool :=
  Unicode.isBlank c && !(28 ≤ c.toNat && c.toNat ≤ 31)

/-- A decimal digit of any script as the Latin one. -/
def latinDigit (c : Char) : Char :=
  match Unicode.digitValue? c with
  | some d => Char.ofNat (48 + d)
  | none => c

/-- The text of a number without its surroundings, in Latin digits. -/
def core (s : String) : List Char :=
  (Text.trimWhile isSpace s.toList).map latinDigit

/-- A sign at the start: whether it is a minus, and what follows it. -/
def signed : List Char → Bool × List Char
  | '-' :: rest => (true, rest)
  | '+' :: rest => (false, rest)
  | s => (false, s)

/-- The value of a digit or letter as a digit. -/
def digitOf (c : Char) : Nat :=
  if c.isDigit then c.toNat - 48
  else if c.isLower then c.toNat - 87
  else if c.isUpper then c.toNat - 55
  else 36

/-- The mark that may stand before the digits of a base. -/
def baseMark : Nat → Option Char
  | 2 => some 'b'
  | 8 => some 'o'
  | 16 => some 'x'
  | _ => none

/-- The digits without the mark of their base, and without an underscore after that. -/
def withoutMark (base : Nat) : List Char → List Char
  | '0' :: mark :: rest =>
    if baseMark base == some mark.toLower then
      match rest with
      | '_' :: more => more
      | _ => rest
    else '0' :: mark :: rest
  | s => s

/-- Whether underscores stand between digits only. -/
def underscoresFit (isDigit : Char → Bool) (before : Option Char) : List Char → Bool
  | [] => before != some '_'
  | c :: rest =>
    (if c == '_' then before.any isDigit else before != some '_' || isDigit c) &&
      underscoresFit isDigit (some c) rest

/-- Most digits of a whole number in a base that is no power of two. -/
def maxDigits : Nat := 4300

/-- The failure of reading or writing too long a whole number. -/
def tooLong (detail : String) : Unexpected :=
  ⟨"ValueError", s!"Exceeds the limit ({maxDigits} digits) for integer string conversion" ++
    detail ++ "; use sys.set_int_max_str_digits() to increase the limit"⟩

/-- The failure of a text that is no whole number. -/
def notWhole (base : Nat) (s : String) : Unexpected :=
  ⟨"ValueError", s!"invalid literal for int() with base {base}: " ++
    String.ofList ((Text.quoted s).toList.take 200)⟩

/-- The whole number that a text stands for. -/
def readWhole (base : Nat) (s : String) : Except Unexpected Int :=
  let (negative, unsigned) := signed (core s)
  let body := withoutMark base unsigned
  let isDigit (c : Char) : Bool := digitOf c < base
  let count := ((body.takeWhile fun c => c == '_' || isDigit c).filter (· != '_')).length
  if base == 10 && maxDigits < count then .error (tooLong s!": value has {count} digits")
  else if body.any isDigit && body.all (fun c => c == '_' || isDigit c) &&
      underscoresFit isDigit none body then
    let n := (body.filter (· != '_')).foldl (fun n c => n * base + digitOf c) 0
    .ok (if negative then -(n : Int) else n)
  else .error (notWhole base s)

/-- The text of a whole number, which fails for too long a one. -/
def writeWhole (i : Int) : Except Unexpected String :=
  if Nat.pow 10 maxDigits ≤ i.natAbs then .error (tooLong "") else .ok (toString i)

def decimalValue (digits : List Char) : Nat :=
  digits.foldl (fun n c => n * 10 + digitOf c) 0

/-- The exponent at the end of a number; nothing but digits may follow its sign. -/
def exponent? : List Char → Option Int
  | [] => some 0
  | e :: rest =>
    let (negative, digits) := signed rest
    if e.toLower == 'e' && !digits.isEmpty && digits.all Char.isDigit then
      some (if negative then -(decimalValue digits : Int) else decimalValue digits)
    else none

/-- A number of digits, a point and an exponent, none of them signed or spaced. -/
def decimal? (negative : Bool) (s : List Char) : Option Binary64 :=
  let whole := s.takeWhile Char.isDigit
  let rest := s.drop whole.length
  let (fraction, rest) :=
    match rest with
    | '.' :: more => (more.takeWhile Char.isDigit, more.dropWhile Char.isDigit)
    | _ => ([], rest)
  if whole.isEmpty && fraction.isEmpty then none
  else (exponent? rest).map fun e =>
    .ofDecimal negative (decimalValue (whole ++ fraction)) (e - fraction.length)

/-- The floating-point number that a text stands for. -/
def readReal (s : String) : Except Unexpected Binary64 :=
  let body := core s
  let (negative, unsigned) := signed body
  let word := String.ofList (unsigned.map Char.toLower)
  let number :=
    if word == "inf" || word == "infinity" then some (.infinite negative)
    else if word == "nan" then some .nan
    else if underscoresFit Char.isDigit none body then
      decimal? negative (unsigned.filter (· != '_'))
    else none
  match number with
  | some x => .ok x
  | none => .error ⟨"ValueError", "could not convert string to float: " ++ Text.quoted s⟩

end RepoAtlas.NumberText
