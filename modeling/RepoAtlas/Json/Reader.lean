import RepoAtlas.Json.Value

/-!
Reading JSON text. Besides the standard's values the words `NaN`, `Infinity`
and `-Infinity` are numbers. Of a repeated key the last value counts. Halves of
surrogate pairs may stand in strings, as they are and as escapes.
-/
namespace RepoAtlas.Json

/-- Why a text is no JSON value, and how many code points were left where that was seen. -/
inductive ReadError where
  | expectedValue (left : Nat)
  | expectedKey (left : Nat)
  | expectedColon (left : Nat)
  | expectedComma (left : Nat)
  | unterminatedString (left : Nat)
  | controlCharacter (left : Nat)
  | badEscape (left : Nat)
  | badUnicodeEscape (left : Nat)
  | extraData (left : Nat)
  | byteOrderMark
  /-- More digits than are converted. -/
  | longInteger (digits : Nat)
  /-- More open brackets than are followed, the innermost one that of a list or an object. -/
  | tooDeep (list : Bool)
deriving Repr, DecidableEq, Inhabited

abbrev Read (α : Type) := Except ReadError (α × LooseText)

def isJsonSpace (c : Char) : Bool :=
  c == ' ' || c == '\n' || c == '\r' || c == '\t'

def skipSpace (s : LooseText) : LooseText :=
  s.dropWhile (·.isA isJsonSpace)

def hexValue? (c : Char) : Option Nat :=
  if c.isDigit then some (c.toNat - 48)
  else if 'a' ≤ c && c ≤ 'f' then some (c.toNat - 87)
  else if 'A' ≤ c && c ≤ 'F' then some (c.toNat - 55)
  else none

/-- The UTF-16 unit that four hexadecimal digits stand for. -/
def unit? : LooseText → Option (Nat × LooseText)
  | .char a :: .char b :: .char c :: .char d :: rest =>
    match hexValue? a, hexValue? b, hexValue? c, hexValue? d with
    | some a, some b, some c, some d => some (((a * 16 + b) * 16 + c) * 16 + d, rest)
    | _, _, _, _ => none
  | _ => none

/-- The code point that a unit stands for, alone or with the escape that follows. -/
def pointOfUnit (n : Nat) (rest : LooseText) : CodePoint × LooseText :=
  if 55296 ≤ n && n < 56320 then
    match rest with
    | .char '\\' :: .char 'u' :: more =>
      match unit? more with
      | some (m, after) =>
        if 56320 ≤ m && m < 57344 then
          (.char (Char.ofNat (65536 + (n - 55296) * 1024 + (m - 56320))), after)
        else (.ofNat n, rest)
      | none => (.ofNat n, rest)
    | _ => (.ofNat n, rest)
  else (.ofNat n, rest)

/-- The character of an escape with one letter. -/
def simpleEscape? (c : Char) : Option Char :=
  if c == '"' || c == '\\' || c == '/' then some c
  else if c == 'b' then some (Char.ofNat 8)
  else if c == 'f' then some (Char.ofNat 12)
  else if c == 'n' then some '\n'
  else if c == 'r' then some '\r'
  else if c == 't' then some '\t'
  else none

/--
The code points of a string up to its closing quote. `opened` is the number of
code points from the opening quote on.
-/
def readPoints (opened : Nat) : (fuel : Nat) → LooseText → Read LooseText
  | 0, _ => .error (.unterminatedString opened)
  | _ + 1, [] => .error (.unterminatedString opened)
  | fuel + 1, .surrogate place :: rest =>
    match readPoints opened fuel rest with
    | .error err => .error err
    | .ok (points, left) => .ok (.surrogate place :: points, left)
  | fuel + 1, .char c :: rest =>
    if c == '"' then .ok ([], rest)
    else if c == '\\' then
      match rest with
      | [] => .error (.unterminatedString opened)
      | .surrogate _ :: _ => .error (.badEscape (rest.length + 1))
      | .char e :: more =>
        if e == 'u' then
          match unit? more with
          | none =>
            .error (.badUnicodeEscape (if more.length ≤ 4 then more.length else more.length + 1))
          | some (n, after) =>
            let (point, after) := pointOfUnit n after
            match readPoints opened fuel after with
            | .error err => .error err
            | .ok (points, left) => .ok (point :: points, left)
        else
          match simpleEscape? e with
          | none => .error (.badEscape (rest.length + 1))
          | some d =>
            match readPoints opened fuel more with
            | .error err => .error err
            | .ok (points, left) => .ok (.char d :: points, left)
    else if c.toNat < 32 then .error (.controlCharacter (rest.length + 1))
    else
      match readPoints opened fuel rest with
      | .error err => .error err
      | .ok (points, left) => .ok (.char c :: points, left)

/-- A string whose opening quote has been read. -/
def readString (rest : LooseText) : Read LooseText :=
  readPoints (rest.length + 1) (rest.length + 1) rest

/-- Most brackets that may be open at once. -/
def maxDepth : Nat := 980

def natOfDigits (digits : List Char) : Nat :=
  digits.foldl (fun n c => n * 10 + (c.toNat - 48)) 0

/-- Most digits of an integer that is converted. -/
def maxIntegerDigits : Nat := 4300

/-- A number, if the text starts with one. -/
def readNumber (s : List Char) : Option (Except ReadError (Json × List Char)) :=
  let (negative, body) :=
    match s with
    | '-' :: rest => (true, rest)
    | _ => (false, s)
  let whole :=
    match body with
    | '0' :: _ => ['0']
    | _ => body.takeWhile Char.isDigit
  if whole.isEmpty then none
  else
    let rest := body.drop whole.length
    let fraction :=
      match rest with
      | '.' :: more => more.takeWhile Char.isDigit
      | _ => []
    let rest := if fraction.isEmpty then rest else rest.drop (fraction.length + 1)
    let exponent : Option (Int × Nat) :=
      match rest with
      | e :: more =>
        if e == 'e' || e == 'E' then
          let (sign, digits, skipped) : Int × List Char × Nat :=
            match more with
            | '-' :: d => (-1, d.takeWhile Char.isDigit, 2)
            | '+' :: d => (1, d.takeWhile Char.isDigit, 2)
            | d => (1, d.takeWhile Char.isDigit, 1)
          if digits.isEmpty then none
          else some (sign * natOfDigits digits, skipped + digits.length)
        else none
      | [] => none
    let left := rest.drop (exponent.map Prod.snd |>.getD 0)
    if fraction.isEmpty && exponent.isNone then
      if maxIntegerDigits < whole.length then some (.error (.longInteger whole.length))
      else
        let n := natOfDigits whole
        some (.ok (.int (if negative then -(n : Int) else n), left))
    else
      let e : Int := (exponent.map Prod.fst |>.getD 0) - fraction.length
      some (.ok (.real (.ofDecimal negative (natOfDigits (whole ++ fraction)) e), left))

/-- A number, if the text starts with one. It ends in front of the first surrogate. -/
def readNumberAt (s : LooseText) : Option (Read Json) :=
  (readNumber s.leading).map fun found =>
    found.map fun (v, left) => (v, s.drop (s.leading.length - left.length))

/-- What a word stands for. -/
def readWord (s : LooseText) : Option (Json × LooseText) :=
  let words : List (String × Json) :=
    [("null", .null), ("true", .bool true), ("false", .bool false), ("NaN", .real .nan),
      ("Infinity", .real (.infinite false)), ("-Infinity", .real (.infinite true))]
  words.findSome? fun (w, v) =>
    if (LooseText.ofString w).isPrefixOf s then some (v, s.drop w.length) else none

mutual

/-- A value at the start of a text. -/
def readValue : (depth fuel : Nat) → LooseText → Read Json
  | _, 0, s => .error (.expectedValue s.length)
  | depth, fuel + 1, s =>
    match s with
    | .char '"' :: rest =>
      match readString rest with
      | .error err => .error err
      | .ok (text, left) => .ok (.ofText text, left)
    | .char '[' :: rest =>
      match depth, skipSpace rest with
      | 0, _ => .error (.tooDeep true)
      | _, .char ']' :: left => .ok (.arr [], left)
      | depth + 1, inner =>
        match readItems depth fuel inner with
        | .error err => .error err
        | .ok (items, left) => .ok (.arr items, left)
    | .char '\x7b' :: rest =>
      match depth, skipSpace rest with
      | 0, _ => .error (.tooDeep false)
      | _, .char '\x7d' :: left => .ok (.obj [], left)
      | depth + 1, inner =>
        match readFields depth fuel inner with
        | .error err => .error err
        | .ok (fields, left) => .ok (.obj (Table.ofEntries fields), left)
    | s =>
      match readWord s with
      | some r => .ok r
      | none =>
        match readNumberAt s with
        | some r => r
        | none => .error (.expectedValue s.length)

/-- The items of a list up to its closing bracket. -/
def readItems : (depth fuel : Nat) → LooseText → Read (List Json)
  | _, 0, s => .error (.expectedValue s.length)
  | depth, fuel + 1, s =>
    match readValue depth fuel s with
    | .error err => .error err
    | .ok (v, left) =>
      match skipSpace left with
      | .char ']' :: left => .ok ([v], left)
      | .char ',' :: left =>
        match readItems depth fuel (skipSpace left) with
        | .error err => .error err
        | .ok (vs, left) => .ok (v :: vs, left)
      | left => .error (.expectedComma left.length)

/-- The fields of an object up to its closing brace. A key that cannot be written has marks. -/
def readFields : (depth fuel : Nat) → LooseText → Read (List (String × Json))
  | _, 0, s => .error (.expectedKey s.length)
  | depth, fuel + 1, s =>
    match s with
    | .char '"' :: rest =>
      match readString rest with
      | .error err => .error err
      | .ok (key, left) =>
        match skipSpace left with
        | .char ':' :: left =>
          match readValue depth fuel (skipSpace left) with
          | .error err => .error err
          | .ok (v, left) =>
            match skipSpace left with
            | .char '\x7d' :: left => .ok ([(key.shown, v)], left)
            | .char ',' :: left =>
              match readFields depth fuel (skipSpace left) with
              | .error err => .error err
              | .ok (fields, left) => .ok ((key.shown, v) :: fields, left)
            | left => .error (.expectedComma left.length)
        | left => .error (.expectedColon left.length)
    | s => .error (.expectedKey s.length)

end

/-- The value that a whole text stands for. -/
def readLoose (s : LooseText) : Except ReadError Json :=
  if s.head? == some (.char (Char.ofNat 65279)) then .error .byteOrderMark
  else
    match readValue maxDepth (2 * s.length + 2) (skipSpace s) with
    | .error err => .error err
    | .ok (v, left) =>
      let left := skipSpace left
      if left.isEmpty then .ok v else .error (.extraData left.length)

/-- The value that a text of characters stands for. -/
def readText (s : List Char) : Except ReadError Json :=
  readLoose (.ofChars s)

/-- Where `left` code points of a text are left: the line, the column, and the point's number. -/
def placeText (s : LooseText) (left : Nat) : String :=
  let before := s.take (s.length - left)
  let line := before.count (.char '\n') + 1
  let column := (before.reverse.takeWhile (· != .char '\n')).length + 1
  s!": line {line} column {column} (char {before.length})"

/-- The number of the code point at which a text stops being a document. -/
def ReadError.position? (s : LooseText) : ReadError → Option Nat
  | expectedValue left | expectedKey left | expectedColon left | expectedComma left
  | unterminatedString left | controlCharacter left | badEscape left | badUnicodeEscape left
  | extraData left => some (s.length - left)
  | byteOrderMark => some 0
  | longInteger _ | tooDeep _ => none

/-- The wording of a fault in a loose text. -/
def ReadError.messageIn (s : LooseText) : ReadError → String
  | expectedValue left => "Expecting value" ++ placeText s left
  | expectedKey left => "Expecting property name enclosed in double quotes" ++ placeText s left
  | expectedColon left => "Expecting ':' delimiter" ++ placeText s left
  | expectedComma left => "Expecting ',' delimiter" ++ placeText s left
  | unterminatedString left => "Unterminated string starting at" ++ placeText s left
  | controlCharacter left => "Invalid control character at" ++ placeText s left
  | badEscape left => "Invalid \\escape" ++ placeText s left
  | badUnicodeEscape left => "Invalid \\uXXXX escape" ++ placeText s left
  | extraData left => "Extra data" ++ placeText s left
  | byteOrderMark => "Unexpected UTF-8 BOM (decode using utf-8-sig)" ++ placeText s s.length
  | longInteger digits =>
    s!"Exceeds the limit ({maxIntegerDigits} digits) for integer string conversion: " ++
      s!"value has {digits} digits; use sys.set_int_max_str_digits() to increase the limit"
  | tooDeep list =>
    "maximum recursion depth exceeded while decoding a JSON " ++
      (if list then "array" else "object") ++ " from a unicode string"

/-- The wording of a fault in a text. -/
def ReadError.message (s : List Char) (error : ReadError) : String :=
  error.messageIn (.ofChars s)

end RepoAtlas.Json
