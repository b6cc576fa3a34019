import RepoAtlas.Json.Value

/-!
JSON text in ASCII: on one line, or with each item on a line of its own.
-/
namespace RepoAtlas.Json

def hexDigit (n : Nat) : Char :=
  Nat.digitChar (n % 16)

/-- The escape of one UTF-16 unit. -/
def unitEscape (n : Nat) : List Char :=
  ['\\', 'u', hexDigit (n / 4096), hexDigit (n / 256), hexDigit (n / 16), hexDigit n]

/-- A character inside a string. Characters outside ASCII become one or two escapes. -/
def escapeChar (c : Char) : List Char :=
  if c == '"' then ['\\', '"']
  else if c == '\\' then ['\\', '\\']
  else if c == '\n' then ['\\', 'n']
  else if c == '\r' then ['\\', 'r']
  else if c == '\t' then ['\\', 't']
  else if c.toNat == 12 then ['\\', 'f']
  else if c.toNat == 8 then ['\\', 'b']
  else if 32 ≤ c.toNat && c.toNat ≤ 126 then [c]
  else if c.toNat < 65536 then unitEscape c.toNat
  else
    let n := c.toNat - 65536
    unitEscape (55296 + n / 1024) ++ unitEscape (56320 + n % 1024)

/-- A string between quotes. -/
def escapeString (s : List Char) : List Char :=
  '"' :: s.flatMap escapeChar ++ ['"']

/-- A code point inside a string. A half of a surrogate pair becomes an escape of its own. -/
def escapePoint : CodePoint → List Char
  | .char c => escapeChar c
  | .surrogate place => unitEscape (0xd800 + place)

def realText : Binary64 → List Char
  | .nan => "NaN".toList
  | .infinite negative => (if negative then "-Infinity" else "Infinity").toList
  | x => x.toText.toList

/-- Where the items of a list or an object stand. -/
inductive Layout where
  | line
  | indented
deriving Repr, DecidableEq

/-- What stands between two items, and between the brackets and the items, at a depth. -/
def Layout.gap (layout : Layout) (depth : Nat) : List Char :=
  match layout with
  | .line => []
  | .indented => '\n' :: List.replicate (2 * depth) ' '

def Layout.comma (layout : Layout) (depth : Nat) : List Char :=
  match layout with
  | .line => [',', ' ']
  | .indented => ',' :: Layout.indented.gap depth

mutual

/-- The text of a value whose brackets stand at `depth`. -/
def render (layout : Layout) (depth : Nat) : Json → List Char
  | null => "null".toList
  | bool b => (if b then "true" else "false").toList
  | int i => (toString i).toList
  | real x => realText x
  | str s => escapeString s.toList
  | loose t => '"' :: t.flatMap escapePoint ++ ['"']
  | arr [] => ['[', ']']
  | arr (v :: rest) =>
    '[' :: layout.gap (depth + 1) ++ render layout (depth + 1) v ++
      renderItems layout (depth + 1) rest ++ layout.gap depth ++ [']']
  | obj [] => ['\x7b', '\x7d']
  | obj ((k, v) :: rest) =>
    '\x7b' :: layout.gap (depth + 1) ++ escapeString k.toList ++ [':', ' '] ++
      render layout (depth + 1) v ++ renderFields layout (depth + 1) rest ++
      layout.gap depth ++ ['\x7d']

def renderItems (layout : Layout) (depth : Nat) : List Json → List Char
  | [] => []
  | v :: rest => layout.comma depth ++ render layout depth v ++ renderItems layout depth rest

def renderFields (layout : Layout) (depth : Nat) : List (String × Json) → List Char
  | [] => []
  | (k, v) :: rest =>
    layout.comma depth ++ escapeString k.toList ++ [':', ' '] ++ render layout depth v ++
      renderFields layout depth rest

end

/-- The text of a value on one line. -/
def compact (v : Json) : String :=
  String.ofList (render .line 0 v)

/-- The text of a value with its items on lines of their own. -/
def pretty (v : Json) : String :=
  String.ofList (render .indented 0 v)

end RepoAtlas.Json
