import RepoAtlas.Unicode.LetterCase
import RepoAtlas.Unicode.Alphanumeric
import RepoAtlas.Unicode.Printable

/-!
Classes of characters and the case of text, over all of Unicode.
-/
namespace RepoAtlas.Unicode

/-- White space: the separators, the line ends and the four information separators. -/
def isBlank (c : Char) : Bool :=
  let n := c.toNat
  (9 ≤ n && n ≤ 13) || (28 ≤ n && n ≤ 32) || n == 133 || n == 160 || n == 5760 ||
    (8192 ≤ n && n ≤ 8202) || n == 8232 || n == 8233 || n == 8239 || n == 8287 || n == 12288

theorem isBlank_of_isWhitespace {c : Char} (h : c.isWhitespace = true) : isBlank c = true := by
  simp only [Char.isWhitespace, Bool.or_eq_true, decide_eq_true_eq] at h
  rcases h with ((h | h) | h) | h <;> subst h <;> decide

/-- Letters, digits and other numeric characters. -/
def isAlphanumeric (c : Char) : Bool :=
  if c.toNat < 128 then c.isAlphanum else inRanges alphanumericRanges c

/-- Characters of a word: alphanumeric ones and the underscore. -/
def isWordChar (c : Char) : Bool :=
  c == '_' || isAlphanumeric c

/-- Whether a character is lower-case. -/
def isLower (c : Char) : Bool :=
  if c.toNat < 128 then c.isLower else inRanges lowercaseRanges c

/-- Whether a character is upper-case. -/
def isUpper (c : Char) : Bool :=
  if c.toNat < 128 then c.isUpper else inRanges uppercaseRanges c

/-- Whether quoted text shows a character as it is. -/
def isPrintable (c : Char) : Bool :=
  if c.toNat < 127 then 32 ≤ c.toNat else !inRanges unprintableRanges c

/-- The value of a decimal digit of any script. -/
def digitValue? (c : Char) : Option Nat :=
  if c.toNat < 128 then
    if c.isDigit then some (c.toNat - 48) else none
  else (rangeOf? decimalRanges c.toNat).map fun r => (c.toNat - r.1) % 10

/-- The run of a mapping table that a code point belongs to. -/
def runOf? (runs : Array CaseRun) (n : Nat) : Option CaseRun :=
  runs.find? fun r => r.first ≤ n && n ≤ r.last && (n - r.first) % r.step == 0

/-- The character that lies where a mapping table sends `c`. -/
def shifted (runs : Array CaseRun) (c : Char) : Char :=
  match runOf? runs c.toNat with
  | some r => Char.ofNat ((c.toNat : Int) + r.shift).toNat
  | none => c

/-- The upper case of one character, which may need several. -/
def upperChars (c : Char) : List Char :=
  if c.toNat < 128 then [c.toUpper]
  else
    match upperExpansions.find? (·.1 == c.toNat) with
    | some (_, expansion) => expansion.map Char.ofNat
    | none => [shifted upperRuns c]

/-- The lower case of one character, its neighbours left aside. -/
def lowerChars (c : Char) : List Char :=
  if c.toNat < 128 then [c.toLower]
  else if c.toNat == 304 then [Char.ofNat 105, Char.ofNat 775]
  else [shifted lowerRuns c]

/-- Whether the first character that is not passed over is a cased one. -/
def meetsCased : List Char → Bool
  | [] => false
  | c :: rest =>
    if inRanges caseIgnorableRanges c then meetsCased rest
    else c.isAlpha || inRanges casedRanges c

/--
The lower case of a text whose characters before `rest` are `before`, last one
first. A capital sigma at the end of a word takes its final form.
-/
def lowerFrom (before : List Char) : List Char → List Char
  | [] => []
  | c :: rest =>
    let here :=
      if c.toNat == 931 then
        if meetsCased before && !meetsCased rest then [Char.ofNat 962] else [Char.ofNat 963]
      else lowerChars c
    here ++ lowerFrom (c :: before) rest

/-- The lower case of a text. -/
def lowercase (s : String) : String :=
  String.ofList (lowerFrom [] s.toList)

/-- The text with its first character in upper case. -/
def capitalize (s : String) : String :=
  match s.toList with
  | [] => ""
  | c :: rest => String.ofList (upperChars c ++ rest)

/-- Whether a text starts with an upper-case character. -/
def startsUpper (s : String) : Bool :=
  match s.toList with
  | [] => false
  | c :: _ => isUpper c

/-- Whether a text starts with a lower-case character. -/
def startsLower (s : String) : Bool :=
  match s.toList with
  | [] => false
  | c :: _ => isLower c

end RepoAtlas.Unicode
