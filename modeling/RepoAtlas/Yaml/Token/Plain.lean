import RepoAtlas.Yaml.Token.State

/-!
Text without quotes, on one line or on several that are indented far enough.
-/
namespace RepoAtlas.Yaml.Lex

/-- How many characters of a text without quotes come before the next blank or indicator. -/
def plainLength (inFlow : Bool) : List Char → Nat
  | [] => 0
  | c :: rest =>
    let after := rest.head?.getD endMark
    if isGap c then 0
    else if c == ':' && (isGap after || (inFlow && ",[]\x7b\x7d".toList.contains after)) then 0
    else if inFlow && ",?[]\x7b\x7d".toList.contains c then 0
    else plainLength inFlow rest + 1

/-- Line breaks and the spaces around them; none if a separator of documents comes first. -/
def plainBreaks : Nat → Lex (Option (List Char))
  | 0 => return some []
  | fuel + 1 => do
    passSpaces
    let c ← lineBreak
    if c.isEmpty then return some []
    if ← atSeparator then return none
    return (← plainBreaks fuel).map (c ++ ·)

/-- What stands between two words, nothing if the text ends here. -/
def plainGap : Lex (List Char) := do
  let spaces ← passing (· == ' ')
  let first ← lineBreak
  if first.isEmpty then return spaces
  allowKey true
  if ← atSeparator then return []
  match ← plainBreaks (← remaining) with
  | none => return []
  | some more =>
    if first != ['\n'] then return first ++ more
    return if more.isEmpty then [' '] else more

/-- The words of a text after a gap. -/
def plainWords (gap : List Char) : Nat → Lex (List Char)
  | 0 => return []
  | fuel + 1 => do
    let s ← get
    if s.cursor.peek 0 == '#' then return []
    let n := plainLength (s.level != 0) s.cursor.rest
    if n == 0 then return []
    let word := s.cursor.rest.take n
    allowKey false
    skip n
    let next ← plainGap
    let s ← get
    if next.isEmpty || s.cursor.peek 0 == '#' ||
        (s.level == 0 && (s.cursor.column : Int) < s.indent + 1) then
      return gap ++ word
    return gap ++ word ++ (← plainWords next fuel)

def plainText : Lex String := do
  return String.ofList (← plainWords [] (← remaining))

end RepoAtlas.Yaml.Lex
