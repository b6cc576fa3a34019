import RepoAtlas.Yaml.Token.State

/-!
Text in an indented block: with its line breaks kept, or folded into spaces.
-/
namespace RepoAtlas.Yaml.Lex

/-- What becomes of the line breaks at the end of a block. -/
inductive Chomping where
  | clip
  | keep
  | strip
deriving DecidableEq

def chomping? (c : Char) : Option Chomping :=
  if c == '+' then some .keep else if c == '-' then some .strip else none

/-- The width of the indentation, if it is given. -/
def blockWidth : Lex (Option Nat) := do
  let c ← peek
  if !c.isDigit then return none
  if c == '0' then fail
  skip
  return some (c.toNat - 48)

def blockChomping : Lex (Option Chomping) := do
  match chomping? (← peek) with
  | none => return none
  | some chomping =>
    skip
    return some chomping

/-- What the line that starts a block says: a chomping and a width in either order. -/
def blockHeader : Lex (Chomping × Option Nat) := do
  let header ← match ← blockChomping with
    | some chomping => pure (chomping, ← blockWidth)
    | none => do
      match ← blockWidth with
      | none => pure (.clip, none)
      | some width => pure ((← blockChomping).getD .clip, some width)
  if !isSpaceOrEnd (← peek) then fail
  passRestOfLine
  return header

/-- Empty lines at the start of a block, and the greatest column that spaces reach in them. -/
def leadingBreaks (column : Nat) : Nat → Lex (List Char × Nat)
  | 0 => return ([], column)
  | fuel + 1 => do
    passSpaces
    let column := max column (← get).cursor.column
    let c ← lineBreak
    if c.isEmpty then return ([], column)
    let (more, column) ← leadingBreaks column fuel
    return (c ++ more, column)

/-- Passes spaces up to a column. -/
def passIndent (indent : Nat) : Lex Unit := do
  let s ← get
  let spaces := (s.cursor.rest.takeWhile (· == ' ')).length
  skip (min spaces (indent - s.cursor.column))

/-- Empty lines inside a block. -/
def blockBreaks (indent : Nat) : Nat → Lex (List Char)
  | 0 => return []
  | fuel + 1 => do
    passIndent indent
    let c ← lineBreak
    if c.isEmpty then return []
    return c ++ (← blockBreaks indent fuel)

/-- Whether a line of a block starts here. -/
def atBlockLine (indent : Nat) : Lex Bool := do
  let s ← get
  return s.cursor.column == indent && s.cursor.peek 0 != endMark

def startsWithBlank : Lex Bool := do
  let c ← peek
  return c == ' ' || c == '\t'

/-- The lines of a block, the line break after the last one, and the empty lines after that. -/
def blockLines (folded : Bool) (indent : Nat) (breaks : List Char) :
    Nat → Lex (List Char × List Char × List Char)
  | 0 => return ([], [], breaks)
  | fuel + 1 => do
    let blankStart ← startsWithBlank
    let line ← passing fun c => !isBreakOrEnd c
    let ending ← lineBreak
    let more ← blockBreaks indent (← remaining)
    if ← atBlockLine indent then
      let folds := folded && ending == ['\n'] && !blankStart && !(← startsWithBlank)
      let join := if !folds then ending else if more.isEmpty then [' '] else []
      let (text, last, trailing) ← blockLines folded indent more fuel
      return (breaks ++ line ++ join ++ text, last, trailing)
    return (breaks ++ line, ending, more)

/-- The text of a block whose mark comes next. -/
def blockText (folded : Bool) : Lex String := do
  skip
  let (chomping, width) ← blockHeader
  let least := ((← get).indent + 1).toNat.max 1
  let (indent, breaks) ← match width with
    | none => do
      let (breaks, column) ← leadingBreaks 0 (← remaining)
      pure (max least column, breaks)
    | some width => do
      let indent := least + width - 1
      pure (indent, ← blockBreaks indent (← remaining))
  let (text, ending, trailing) ←
    if ← atBlockLine indent then blockLines folded indent breaks (← remaining)
    else pure ([], [], breaks)
  return String.ofList <| text ++
    (match chomping with
      | .strip => []
      | .clip => ending
      | .keep => ending ++ trailing)

end RepoAtlas.Yaml.Lex
