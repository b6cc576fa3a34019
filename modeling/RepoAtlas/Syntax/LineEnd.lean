import RepoAtlas.Unicode.Char

/-!
Statements that end without a semicolon: the line ends, closing braces and ends
of text that stand for one.
-/
namespace RepoAtlas.Syntax

/-- What may follow at a place where a statement can end. -/
inductive Ending where
  /-- No statement ends here. -/
  | never
  /-- An expression may go on. -/
  | expression
  /-- A type or another construct may go on, but no expression. -/
  | plain
  /-- The body of a function may follow. -/
  | signature
deriving Repr, DecidableEq, Inhabited

/-- White space as it counts between statements. -/
def isStatementBlank (c : Char) : Bool :=
  let n := c.toNat
  (9 ≤ n && n ≤ 13) || n == 32 || n == 5760 || (8192 ≤ n && n ≤ 8198) ||
    (8200 ≤ n && n ≤ 8202) || n == 8232 || n == 8233 || n == 8287 || n == 12288

/-- The line ends that can stand for a semicolon. -/
def isBreak (c : Char) : Bool :=
  c == '\n' || c.toNat == 8232 || c.toNat == 8233

/-- How far a look past blanks and comments came. -/
inductive Passed where
  /-- A slash that starts no comment. -/
  | stopped
  /-- A comment without a line end. -/
  | sameLine
  /-- The next character that is neither blank nor part of a comment. -/
  | onward
deriving Repr, DecidableEq, Inhabited

/-- What follows a block comment, and whether it holds a line end. -/
def pastBlockComment (broken : Bool) : List Char → Bool × Bool × List Char
  | [] => (false, broken, [])
  | '*' :: '/' :: rest => (true, broken, rest)
  | c :: rest => pastBlockComment (broken || isBreak c) rest

/--
Looks past blanks and comments. Unless `all` is set, the look ends behind the
first block comment that no slash follows. `broken` tells whether a block
comment so far held a line end.
-/
def passBlanks (all : Bool) : (fuel : Nat) → (broken : Bool) → List Char → Passed × List Char
  | 0, _, s => (.onward, s)
  | fuel + 1, broken, s =>
    match s.dropWhile isStatementBlank with
    | '/' :: '/' :: rest => passBlanks all fuel broken (rest.dropWhile (!isBreak ·))
    | '/' :: '*' :: rest =>
      match pastBlockComment broken rest with
      | (closed, broken, after) =>
        if closed && !all && after.head? != some '/' then
          (if broken then .onward else .sameLine, after)
        else passBlanks all fuel broken after
    | '/' :: rest => (.stopped, rest)
    | s => (.onward, s)

/-- Whether a line that starts with these characters starts a new statement. -/
def startsStatement (ending : Ending) : List Char → Bool
  | [] => true
  | '+' :: rest => rest.head? == some '+'
  | '-' :: rest => rest.head? == some '-'
  | '!' :: rest => rest.head? != some '='
  | 'i' :: 'n' :: rest =>
    let letter (s : List Char) := s.head?.any fun c => Unicode.isAlphanumeric c && !c.isDigit
    letter rest &&
      match rest with
      | 's' :: 't' :: 'a' :: 'n' :: 'c' :: 'e' :: 'o' :: 'f' :: after => letter after
      | _ => true
  | c :: _ =>
    if c == '\x7b' then ending != .signature
    else if c == '(' || c == '[' then ending != .expression
    else !(['\u0060', ',', '.', ';', '*', '%', '>', '<', '=', '?', '^', '|', '&', '/', ':'].contains c)

/-- Whether a statement that ends here needs no semicolon. -/
def endsHere (ending : Ending) : (fuel : Nat) → List Char → Bool
  | 0, _ => false
  | fuel + 1, s =>
    match s with
    | [] => true
    | '/' :: _ =>
      match passBlanks false (fuel + 1) false s with
      | (.stopped, _) => false
      | (passed, after) =>
        if passed == .onward && ending != .expression &&
            !(after.head? == some ',' || after.head? == some '=') then true
        else
          match after with
          | [] => false
          | c :: rest =>
            if c == '\x7d' then true
            else if isBreak c then afterBreak rest
            else if isStatementBlank c then endsHere ending fuel rest
            else false
    | c :: rest =>
      if c == '\x7d' then true
      else if isBreak c then afterBreak rest
      else if isStatementBlank c then endsHere ending fuel rest
      else false
where
  /-- Whether what follows a line end starts a new statement. -/
  afterBreak (rest : List Char) : Bool :=
    match passBlanks true rest.length false rest with
    | (.stopped, _) => false
    | (_, after) => startsStatement ending after

end RepoAtlas.Syntax
