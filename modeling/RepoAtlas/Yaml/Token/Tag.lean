import RepoAtlas.Text.Utf8
import RepoAtlas.Yaml.Token.State

/-!
Tokens that name things: anchors, aliases, tags and directives.
-/
namespace RepoAtlas.Yaml.Lex

/-- Whether a tag may hold a character as it is. -/
def isTagChar (c : Char) : Bool :=
  c.isAlphanum || "-;/?:@&=+$,_.!~*'()[]".toList.contains c

def hexValue (digits : List Char) : Nat :=
  digits.foldl (fun n c => n * 16 +
    (if c.isDigit then c.toNat - 48 else c.toLower.toNat - 87)) 0

/-- Exactly `n` hexadecimal digits. -/
def hexDigits (n : Nat) : Lex Nat := do
  let digits := (← get).cursor.rest.take n
  if digits.length < n || !digits.all isHexDigit then fail
  skip n
  return hexValue digits

/-- Bytes that are written as percent signs and two digits each. -/
def escapedBytes : Nat → Lex (List UInt8)
  | 0 => return []
  | fuel + 1 => do
    if (← peek) != '%' then return []
    skip
    let byte ← hexDigits 2
    return UInt8.ofNat byte :: (← escapedBytes fuel)

/-- The characters of a tag. -/
def tagChars : Nat → Lex (List Char)
  | 0 => return []
  | fuel + 1 => do
    let run ← passing isTagChar
    if (← peek) != '%' then return run
    match Utf8.decode (← escapedBytes (← remaining)) with
    | .ok text => return run ++ text ++ (← tagChars fuel)
    | .error _ => fail

/-- The name or the suffix of a tag, which is not empty. -/
def tagText : Lex String := do
  let start := (← get).cursor.index
  let text ← tagChars (← remaining)
  if (← get).cursor.index == start then fail
  return String.ofList text

/-- A handle: an exclamation mark, or a name between two of them. -/
def tagHandle : Lex String := do
  if (← peek) != '!' then fail
  if (← peek 1) == ' ' then
    skip
    return "!"
  skip
  let name ← passing isNameChar
  if (← peek) != '!' then fail
  skip
  return String.ofList ('!' :: name ++ ['!'])

/-- Whether a second exclamation mark comes before the tag ends. -/
def hasHandle : Lex Bool := do
  let rest := (← get).cursor.rest.drop 1
  return (rest.takeWhile fun c => !isSpaceOrEnd c).contains '!'

def writtenTag : Lex WrittenTag := do
  let c ← peek 1
  let tag ←
    if c == '<' then do
      skip 2
      let name ← tagText
      if (← peek) != '>' then fail
      skip
      pure ⟨none, name⟩
    else if isGap c then do
      skip
      pure ⟨none, "!"⟩
    else if ← hasHandle then do
      let handle ← tagHandle
      pure ⟨some handle, ← tagText⟩
    else do
      skip
      pure ⟨some "!", ← tagText⟩
  if !isSpaceOrEnd (← peek) then fail
  return tag

/-- The name of an anchor after its mark. -/
def anchorName : Lex String := do
  skip
  let name ← passing isNameChar
  if name.isEmpty then fail
  let c ← peek
  if !(isGap c || "?:,]\x7d%@\u0060".toList.contains c) then fail
  return String.ofList name

def directive : Lex Directive := do
  skip
  let name ← passing isNameChar
  if name.isEmpty || !isSpaceOrEnd (← peek) then fail
  let d ←
    match String.ofList name with
    | "YAML" => do
      passSpaces
      let major ← directiveNumber
      if (← peek) != '.' then fail
      skip
      discard directiveNumber
      if !isSpaceOrEnd (← peek) then fail
      pure (.version major)
    | "TAG" => do
      passSpaces
      let handle ← tagHandle
      if (← peek) != ' ' then fail
      passSpaces
      let start ← tagText
      if !isSpaceOrEnd (← peek) then fail
      pure (.tagHandle handle start)
    | _ => do
      discard (passing fun c => !isBreakOrEnd c)
      pure .other
  passRestOfLine
  return d

end RepoAtlas.Yaml.Lex
