import RepoAtlas.Syntax.Tree
import RepoAtlas.Syntax.Lexical
import RepoAtlas.Syntax.LineEnd

/-!
Reading source text from left to right. A scan either fails or gives a value
and moves a cursor forward; alternatives start again from the same cursor, so
what a failed one passed leaves no trace.
-/
namespace RepoAtlas.Syntax

/-- A place in the source: what is left of it, and the comments passed so far, last one first. -/
structure Cursor where
  rest : List Char
  remaining : Nat
  offset : Nat
  comments : List Tree
deriving Inhabited

abbrev Scan := StateT Cursor Option

namespace Cursor

def ofSource (s : List Char) : Cursor :=
  ⟨s, s.length, 0, []⟩

/-- The number of bytes that the first `n` characters of a list take. -/
def bytes : Nat → List Char → Nat
  | 0, _ => 0
  | _, [] => 0
  | n + 1, c :: cs => c.utf8Size + bytes n cs

/-- The cursor after `n` more characters. -/
def advance (c : Cursor) (n : Nat) : Cursor :=
  { c with
    rest := c.rest.drop n
    remaining := c.remaining - n
    offset := c.offset + bytes n c.rest }

/-- The cursor after the white space that it stands before. -/
def skipSpace (c : Cursor) : Cursor :=
  c.advance (c.rest.takeWhile isSpace).length

/-- Passes `n` characters as a comment. -/
def passComment (c : Cursor) (kind : Kind) (n : Nat) : Cursor :=
  let after := c.advance n
  { after with comments := .node kind none c.offset after.offset [] :: c.comments }

/-- The cursor at the next token: white space and comments are passed. -/
def toToken (markup : Bool) : (fuel : Nat) → Cursor → Cursor
  | 0, c => c
  | fuel + 1, c =>
    let c := c.skipSpace
    match c.rest with
    | '/' :: _ =>
      match comment? c.rest with
      | some n => toToken markup fuel (c.passComment .comment n)
      | none => c
    | d :: _ =>
      if markup && (d == '<' || d == '-') then
        match markupComment? c.rest with
        | some n => toToken markup fuel (c.passComment .other n)
        | none => c
      else c
    | [] => c

end Cursor

namespace Scan

def fail : Scan α := fun _ => none

/-- Fails unless a condition holds. -/
def require (b : Bool) : Scan Unit :=
  if b then pure () else fail

def cursor : Scan Cursor := get

/-- Moves to the next token. -/
def skip : Scan Unit :=
  modify fun c => c.toToken false c.remaining

/-- Moves to the next token where a comment of other documents may stand. -/
def skipAll : Scan Unit :=
  modify fun c => c.toToken true c.remaining

/-- The characters from the next token on, which stay unread. -/
def peek : Scan (List Char) := do
  let c ← get
  pure (c.toToken false c.remaining).rest

/-- The offset of the next token. -/
def offset : Scan Nat := do
  let c ← get
  pure (c.toToken false c.remaining).offset

/-- The next `n` characters as a node without children. -/
def take (kind : Kind) (n : Nat) : Scan Tree := fun c =>
  let after := c.advance n
  some (.node kind none c.offset after.offset [], after)

/-- The token that the next characters make up, whose length `length?` gives. -/
def lexeme (kind : Kind) (length? : List Char → Option Nat) : Scan Tree := do
  skip
  let c ← get
  match length? c.rest with
  | some n => take kind n
  | none => fail

/-- A token of exactly these characters. -/
def symbol (text : String) : Scan Tree :=
  lexeme (.token text) fun s =>
    if text.toList.isPrefixOf s then some text.length else none

/-- A token of exactly these characters, with none of `others` behind it. -/
def symbolNot (text : String) (others : List Char) : Scan Tree :=
  lexeme (.token text) fun s =>
    if text.toList.isPrefixOf s &&
      !((s.drop text.length).head?.any others.contains) then some text.length else none

/-- The name that starts with the next token, empty if none does. -/
def peekName : Scan String := do
  let s ← peek
  pure (String.ofList (s.take (nameLength s)))

/-- A name. -/
def name : Scan Tree :=
  lexeme .identifier fun s =>
    let n := nameLength s
    if n == 0 then none else some n

/-- The name `text`, as a token of its own. -/
def keyword (text : String) : Scan Tree :=
  lexeme (.token text) fun s =>
    if text.toList.isPrefixOf s && nameLength s == text.length then some text.length else none

/-- A name that is none of `reserved`. -/
def nameExcept (reserved : List String) : Scan Tree := do
  let w ← peekName
  require (!reserved.contains w)
  name

/-- Nothing or one item. -/
def optional (p : Scan α) : Scan (List α) :=
  (do let a ← p; pure [a]) <|> pure []

/-- What `p` gives, or nothing. -/
def optionalList (p : Scan (List α)) : Scan (List α) :=
  p <|> pure []

def manyFrom (p : Scan α) : Nat → Scan (List α)
  | 0 => pure []
  | fuel + 1 => (do let a ← p; let as ← manyFrom p fuel; pure (a :: as)) <|> pure []

/-- As many items as follow. -/
def many (p : Scan α) : Scan (List α) := do
  let c ← get
  manyFrom p (c.remaining + 1)

/-- As many groups of items as follow, in one list. -/
def manyLists (p : Scan (List α)) : Scan (List α) := do
  let groups ← many p
  pure groups.flatten

def extendedFrom (step : Tree → Scan Tree) : Nat → Tree → Scan Tree
  | 0, t => pure t
  | fuel + 1, t => (do let next ← step t; extendedFrom step fuel next) <|> pure t

/-- A node that `step` extends to the right as often as it can. -/
def extended (step : Tree → Scan Tree) (t : Tree) : Scan Tree := do
  let c ← get
  extendedFrom step c.remaining t

/-- One or more items with `separator` between them. -/
def separated (item : Scan (List Tree)) (separator : Scan Tree) : Scan (List Tree) := do
  let first ← item
  let more ← manyLists do
    let s ← separator
    let next ← item
    pure (s :: next)
  pure (first ++ more)

/-- A node over the nodes that `p` reads. -/
def branch (kind : Kind) (p : Scan (List Tree)) : Scan Tree := do
  let start ← offset
  let children ← p
  pure (Tree.ofChildren kind start children)

/-- The same scan, the cursor left where it was. -/
def ahead (p : Scan α) : Scan α := do
  let c ← get
  let a ← p
  set c
  pure a

/-- Whether a scan would succeed here. -/
def test (p : Scan α) : Scan Bool :=
  (do let _ ← ahead p; pure true) <|> pure false

/-- Whether a statement ends here without a semicolon, comments aside. -/
def endsFrom (ending : Ending) : (fuel : Nat) → Cursor → Bool
  | 0, _ => false
  | fuel + 1, c =>
    if endsHere ending (c.remaining + 1) c.rest then true
    else
      let next := c.skipSpace
      match comment? next.rest with
      | some n => endsFrom ending fuel (next.passComment .comment n)
      | none => false

/-- Whether a statement that may end here does. -/
def atEnd (ending : Ending) : Scan Bool := do
  if ending == .never then pure false
  else
    let c ← get
    pure (endsFrom ending (c.remaining + 1) c)

def semicolonFrom (ending : Ending) : (fuel : Nat) → Scan Tree
  | 0 => fail
  | fuel + 1 => do
    let c ← get
    if endsHere ending (c.remaining + 1) c.rest then take (.token "") 0
    else
      let next := c.skipSpace
      match next.rest with
      | ';' :: _ => do set next; take (.token ";") 1
      | _ =>
        match comment? next.rest with
        | some n => do
          set (next.passComment .comment n)
          semicolonFrom ending fuel
        | none => fail

/-- A semicolon, or an end that needs none. -/
def semicolon (ending : Ending) : Scan Tree := do
  let c ← get
  semicolonFrom ending (c.remaining + 1)

end Scan

end RepoAtlas.Syntax
