import RepoAtlas.Unicode.Char

/-!
The words of source text: how many characters the blank, comment, name,
number, escape or pattern takes that a list of characters starts with.
-/
namespace RepoAtlas.Syntax

/-- Characters between tokens. -/
def isSpace (c : Char) : Bool :=
  let n := c.toNat
  (9 ≤ n && n ≤ 13) || n == 32 || n == 160 || n == 5760 || (8192 ≤ n && n ≤ 8203) ||
    n == 8232 || n == 8233 || n == 8239 || n == 8287 || n == 8288 || n == 12288 || n == 65279

/-- The characters that end a line of source text. -/
def endsLine (c : Char) : Bool :=
  c == '\n' || c == '\r' || c.toNat == 8232 || c.toNat == 8233

/-- Punctuation that no name contains. -/
def namePunctuation : List Char :=
  [':', ';', '\u0060', '"', '\'', '@', '#', '.', ',', '|', '^', '&', '<', '=', '>', '+', '-', '*', '/',
    '\\', '%', '?', '!', '~', '(', ')', '[', ']', '\x7b', '\x7d']

/-- Characters that a name may contain. -/
def isNameChar (c : Char) : Bool :=
  31 < c.toNat && !isSpace c && !namePunctuation.contains c

/-- Hexadecimal digits. -/
def isHex (c : Char) : Bool :=
  c.isDigit || ('a' ≤ c && c ≤ 'f') || ('A' ≤ c && c ≤ 'F')

/-- The length of an escape of a code point, the backslash included. -/
def codePointEscape? : List Char → Option Nat
  | '\\' :: 'u' :: '\x7b' :: rest =>
    let digits := rest.takeWhile isHex
    match rest.drop digits.length with
    | '\x7d' :: _ => if digits.isEmpty then none else some (digits.length + 4)
    | _ => none
  | '\\' :: 'u' :: a :: b :: c :: d :: _ =>
    if isHex a && isHex b && isHex c && isHex d then some 6 else none
  | _ => none

/--
The length of a name from its first `inside` characters on, which are taken as
they are.
-/
def nameFrom : (inside : Nat) → List Char → Nat
  | _, [] => 0
  | inside + 1, _ :: rest => 1 + nameFrom inside rest
  | 0, c :: rest =>
    if c == '\\' then
      match codePointEscape? (c :: rest) with
      | some n => 1 + nameFrom (n - 1) rest
      | none => 0
    else if isNameChar c then 1 + nameFrom 0 rest
    else 0

/-- The length of a name, zero if there is none. No name starts with a digit. -/
def nameLength : List Char → Nat
  | [] => 0
  | c :: rest => if c.isDigit then 0 else nameFrom 0 (c :: rest)

/-- The length of a comment up to the end of its line. -/
def lineComment? : List Char → Option Nat
  | '/' :: '/' :: rest => some (2 + (rest.takeWhile (!endsLine ·)).length)
  | _ => none

/-- The distance to the end of an open block comment. -/
def blockCommentTail? : List Char → Option Nat
  | [] => none
  | '*' :: '/' :: _ => some 2
  | _ :: rest => (blockCommentTail? rest).map (· + 1)

/-- The length of a comment between its two marks. -/
def blockComment? : List Char → Option Nat
  | '/' :: '*' :: rest => (blockCommentTail? rest).map (· + 2)
  | _ => none

/-- The length of a comment. -/
def comment? (s : List Char) : Option Nat :=
  match lineComment? s with
  | some n => some n
  | none => blockComment? s

/-- The length of a comment in the form of other documents, up to the end of its line. -/
def markupComment? (s : List Char) : Option Nat :=
  let tail (n : Nat) (rest : List Char) :=
    some (n + (rest.takeWhile fun c => !(c == '\n' || c.toNat == 8232 || c.toNat == 8233)).length)
  match s with
  | '<' :: '!' :: '-' :: '-' :: rest => tail 4 rest
  | '-' :: '-' :: '>' :: rest => tail 3 rest
  | _ => none

/-- The length of a run of digits with single underscores between them. -/
def digitRun (isDigit : Char → Bool) : List Char → Nat
  | c :: '_' :: d :: rest =>
    if isDigit c then if isDigit d then 2 + digitRun isDigit (d :: rest) else 1 else 0
  | c :: rest => if isDigit c then 1 + digitRun isDigit rest else 0
  | [] => 0

/-- The length of an exponent. -/
def exponentLength : List Char → Nat
  | e :: rest =>
    if e == 'e' || e == 'E' then
      match rest with
      | s :: more =>
        if s == '+' || s == '-' then
          let n := digitRun Char.isDigit more
          if n == 0 then 0 else n + 2
        else
          let n := digitRun Char.isDigit rest
          if n == 0 then 0 else n + 1
      | [] => 0
    else 0
  | [] => 0

/-- The length of a number with a base of its own, the base mark included. -/
def basedNumber? (isDigit : Char → Bool) (rest : List Char) : Option Nat :=
  let n := digitRun isDigit rest
  if n == 0 then none
  else
    match rest.drop n with
    | 'n' :: _ => some (n + 3)
    | _ => some (n + 2)

/-- The length of a decimal number. -/
def decimalNumber? (s : List Char) : Option Nat :=
  let whole := digitRun Char.isDigit s
  match s.drop whole with
  | '.' :: rest =>
    let fraction := digitRun Char.isDigit rest
    if whole == 0 && fraction == 0 then none
    else some (whole + 1 + fraction + exponentLength (rest.drop fraction))
  | rest =>
    if whole == 0 then none
    else
      let exponent := exponentLength rest
      if exponent != 0 then some (whole + exponent)
      else
        match rest with
        | 'n' :: _ => some (whole + 1)
        | _ => some whole

/-- The length of a number. -/
def number? : List Char → Option Nat
  | '0' :: b :: rest =>
    let based :=
      if b == 'x' || b == 'X' then basedNumber? isHex rest
      else if b == 'b' || b == 'B' then basedNumber? (fun c => c == '0' || c == '1') rest
      else if b == 'o' || b == 'O' then basedNumber? (fun c => '0' ≤ c && c ≤ '7') rest
      else none
    match based with
    | some n => some n
    | none => decimalNumber? ('0' :: b :: rest)
  | s => decimalNumber? s

/-- The length of an escape in a string, the backslash included. -/
def escape? : List Char → Option Nat
  | '\\' :: c :: rest =>
    if c == 'x' then
      match rest with
      | a :: b :: _ => if isHex a && isHex b then some 4 else none
      | _ => none
    else if c == 'u' then codePointEscape? ('\\' :: c :: rest)
    else if '0' ≤ c && c ≤ '7' then
      some (2 + ((rest.take 2).takeWhile fun d => '0' ≤ d && d ≤ '7').length)
    else if (c == '\r' || c == '?') &&
        rest.head?.any (fun d => d == '\n' || d.toNat == 8232 || d.toNat == 8233) then some 3
    else some 2
  | _ => none

/--
The length of a string up to and including its closing quote. The first
`inside` characters belong to an escape and are taken as they are.
-/
def stringFrom? (quote : Char) : (inside : Nat) → List Char → Option Nat
  | _, [] => none
  | inside + 1, _ :: rest => (stringFrom? quote inside rest).map (· + 1)
  | 0, c :: rest =>
    if c == quote then some 1
    else if c == '\\' then
      match escape? (c :: rest) with
      | some n => (stringFrom? quote (n - 1) rest).map (· + 1)
      | none => none
    else if c == '\n' || c == '\r' then none
    else (stringFrom? quote 0 rest).map (· + 1)

/-- The length of a quoted string. -/
def string? : List Char → Option Nat
  | [] => none
  | c :: rest =>
    if c == '"' || c == '\'' then (stringFrom? c 0 rest).map (· + 1) else none

/-- The length of a pattern after its opening slash, the closing one included. -/
def patternTail? (inClass : Bool) : List Char → Option Nat
  | [] => none
  | '\\' :: c :: rest =>
    if c == '\n' then none else (patternTail? inClass rest).map (· + 2)
  | c :: rest =>
    if c == '\n' then none
    else if inClass then (patternTail? (c != ']') rest).map (· + 1)
    else if c == '/' then some 1
    else (patternTail? (c == '[') rest).map (· + 1)

/-- The length of a pattern literal with its flags. -/
def pattern? : List Char → Option Nat
  | '/' :: c :: rest =>
    if c == '/' || c == '*' then none
    else
      (patternTail? false (c :: rest)).map fun n =>
        let flags := ((c :: rest).drop n).takeWhile fun f => 'a' ≤ f && f ≤ 'z'
        1 + n + flags.length
  | _ => none

/-- The length of a character reference, from the ampersand to the semicolon. -/
def characterReference? : List Char → Option Nat
  | '&' :: rest =>
    let named := rest.takeWhile Char.isAlpha
    let (mark, digits) :=
      match rest with
      | '#' :: x :: more =>
        if x == 'x' || x == 'X' then (2, more.takeWhile isHex)
        else (1, (x :: more).takeWhile Char.isDigit)
      | _ => (0, named)
    let most := if mark == 2 then 6 else if mark == 1 then 5 else 30
    if digits.isEmpty || most < digits.length then none
    else
      match rest.drop (mark + digits.length) with
      | ';' :: _ => some (mark + digits.length + 2)
      | _ => none
  | _ => none

/--
The length of an attribute's string up to and including its closing quote. The
first `inside` characters belong to a reference and are taken as they are.
-/
def attributeFrom? (quote : Char) : (inside : Nat) → List Char → Option Nat
  | _, [] => none
  | inside + 1, _ :: rest => (attributeFrom? quote inside rest).map (· + 1)
  | 0, c :: rest =>
    if c == quote then some 1
    else if c == '&' then
      match characterReference? (c :: rest) with
      | some n => (attributeFrom? quote (n - 1) rest).map (· + 1)
      | none =>
        if rest.head?.all (fun d => d == '#' || d.isAlpha) then none
        else (attributeFrom? quote 0 rest).map (· + 1)
    else (attributeFrom? quote 0 rest).map (· + 1)

/-- The length of a string that stands as the value of an attribute. -/
def attributeString? : List Char → Option Nat
  | [] => none
  | c :: rest =>
    if c == '"' || c == '\'' then (attributeFrom? c 0 rest).map (· + 1) else none

/-- The characters that end a run of text between markup tags. -/
def endsMarkupText (c : Char) : Bool :=
  c == '<' || c == '>' || c == '\x7b' || c == '\x7d' || c == '&'

end RepoAtlas.Syntax
