import RepoAtlas.Yaml.Token

/-!
The state of cutting a text into tokens. A key is known as one only when its
colon comes, so the places where one may have started are kept until then.
-/
namespace RepoAtlas.Yaml

/-- A place where a key without a mark may have started. -/
structure KeyCandidate where
  level : Nat
  /-- How many tokens come before it. -/
  position : Nat
  /-- Whether nothing but a key may stand there. -/
  required : Bool
  start : Cursor
deriving Inhabited

structure Lexer where
  cursor : Cursor
  tokens : Array Token := #[]
  /-- How many brackets are open. -/
  level : Nat := 0
  /-- The column of the innermost block, and those of the blocks around it. -/
  indent : Int := -1
  outer : List Int := []
  keyAllowed : Bool := true
  candidates : List KeyCandidate := []
deriving Inhabited

/-- A step of cutting a text into tokens. -/
abbrev Lex := StateT Lexer (Except Fault)

namespace Lex

def fail : Lex α := throw .malformed

/-- The character `n` places ahead. -/
def peek (n : Nat := 0) : Lex Char :=
  return (← get).cursor.peek n

def skip (n : Nat := 1) : Lex Unit :=
  modify fun s => { s with cursor := s.cursor.skip n }

/-- Passes the characters of a class and gives them. -/
def passing (p : Char → Bool) : Lex (List Char) := do
  let run := (← get).cursor.rest.takeWhile p
  skip run.length
  return run

def passSpaces : Lex Unit :=
  discard (passing (· == ' '))

/-- A bound on the steps that the rest of the text takes. -/
def remaining : Lex Nat :=
  return (← get).cursor.rest.length + 1

def inFlow : Lex Bool :=
  return (← get).level != 0

def emit (t : Token) : Lex Unit :=
  modify fun s => { s with tokens := s.tokens.push t }

def allowKey (allowed : Bool) : Lex Unit :=
  modify fun s => { s with keyAllowed := allowed }

/-- Passes a line break, if there is one. Gives what it counts as. -/
def lineBreak : Lex (List Char) := do
  let c ← peek
  if c == '\r' && (← peek 1) == '\n' then
    skip 2
    return ['\n']
  else if c == '\r' || c == '\n' || c == '\u0085' then
    skip
    return ['\n']
  else if isBreak c then
    skip
    return [c]
  else return []

/-- Passes a remark up to the end of the line. -/
def passComment : Lex Unit := do
  if (← peek) == '#' then discard (passing fun c => !isBreakOrEnd c)

/-- Passes the rest of a line that may hold nothing but a remark. -/
def passRestOfLine : Lex Unit := do
  passSpaces
  passComment
  if !isBreakOrEnd (← peek) then fail
  discard lineBreak

/-- Whether a line of dashes or dots that separates documents starts here. -/
def atSeparator : Lex Bool :=
  return (← get).cursor.isAtMarker '-' || (← get).cursor.isAtMarker '.'

/-- A number of a directive. -/
def directiveNumber : Lex Nat := do
  let digits ← passing Char.isDigit
  if digits.isEmpty then fail
  return digits.foldl (fun n c => n * 10 + (c.toNat - 48)) 0

end Lex

end RepoAtlas.Yaml
