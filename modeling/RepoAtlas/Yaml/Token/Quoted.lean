import RepoAtlas.Yaml.Token.Tag

/-!
Text between quotes. A line break inside counts as a space, empty lines as line
breaks, and between double quotes a backslash starts an escape.
-/
namespace RepoAtlas.Yaml.Lex

/-- What a single character after a backslash stands for. -/
def escapes : List (Char × Char) :=
  [('0', '\x00'), ('a', '\x07'), ('b', '\x08'), ('t', '\t'), ('\t', '\t'), ('n', '\n'),
    ('v', '\x0b'), ('f', '\x0c'), ('r', '\r'), ('e', '\x1b'), (' ', ' '), ('"', '"'),
    ('\\', '\\'), ('/', '/'), ('N', '\u0085'), ('_', '\u00a0'), ('L', '\u2028'),
    ('P', '\u2029')]

/-- How many digits of a code point follow a character after a backslash. -/
def escapeWidth? (c : Char) : Option Nat :=
  if c == 'x' then some 2
  else if c == 'u' then some 4
  else if c == 'U' then some 8
  else none

/-- The character with a code point. Surrogates, which are no characters, are replaced. -/
def charOfCode (code : Nat) : Except Fault Char :=
  if code < 0x110000 then
    .ok (if 0xd800 ≤ code && code ≤ 0xdfff then '\uFFFD' else Char.ofNat code)
  else if code < Nat.pow 2 31 then
    .error (.unexpected ⟨"ValueError", "chr() arg not in range(0x110000)"⟩)
  else .error (.unexpected ⟨"OverflowError", "Python int too large to convert to C int"⟩)

/-- Line breaks at the start of a line inside quotes, with the blanks around them passed. -/
def quotedBreaks : Nat → Lex (List Char)
  | 0 => return []
  | fuel + 1 => do
    if ← atSeparator then fail
    discard (passing fun c => c == ' ' || c == '\t')
    let c ← lineBreak
    if c.isEmpty then return []
    return c ++ (← quotedBreaks fuel)

/-- What an escape stands for whose backslash has been read. -/
def escaped : Lex (List Char) := do
  let c ← peek
  match escapes.lookup c, escapeWidth? c with
  | some plain, _ =>
    skip
    return [plain]
  | none, some width =>
    skip
    let c ← charOfCode (← hexDigits width)
    return [c]
  | none, none =>
    if !isBreak c then fail
    discard lineBreak
    quotedBreaks (← remaining)

/-- The text up to a blank, a line break or the closing quote. -/
def quotedWord (double : Bool) : Nat → Lex (List Char)
  | 0 => return []
  | fuel + 1 => do
    let run ← passing fun c => !(isGap c || c == '\'' || c == '"' || c == '\\')
    let c ← peek
    if !double && c == '\'' && (← peek 1) == '\'' then
      skip 2
      return run ++ '\'' :: (← quotedWord double fuel)
    else if (double && c == '\'') || (!double && (c == '"' || c == '\\')) then
      skip
      return run ++ c :: (← quotedWord double fuel)
    else if double && c == '\\' then
      skip
      let text ← escaped
      return run ++ text ++ (← quotedWord double fuel)
    else return run

/-- What the blanks and line breaks between two words inside quotes stand for. -/
def quotedGap : Lex (List Char) := do
  let blanks ← passing fun c => c == ' ' || c == '\t'
  if (← peek) == endMark then fail
  let first ← lineBreak
  if first.isEmpty then return blanks
  let more ← quotedBreaks (← remaining)
  if first != ['\n'] then return first ++ more
  return if more.isEmpty then [' '] else more

def quotedRest (double : Bool) : Nat → Lex (List Char)
  | 0 => fail
  | fuel + 1 => do
    if (← peek) == (if double then '"' else '\'') then
      skip
      return []
    let gap ← quotedGap
    let word ← quotedWord double (← remaining)
    return gap ++ word ++ (← quotedRest double fuel)

/-- The text between two quotes. -/
def quotedText (double : Bool) : Lex String := do
  skip
  let word ← quotedWord double (← remaining)
  let rest ← quotedRest double (← remaining)
  return String.ofList (word ++ rest)

end RepoAtlas.Yaml.Lex
