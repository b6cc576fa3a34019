import RepoAtlas.Failure

/-!
Text whose code points need not all be characters: a half of a surrogate pair
may stand in it on its own. Such a text cannot be written in UTF-8.
-/
namespace RepoAtlas

/-- A code point: a character, or a half of a surrogate pair on its own. -/
inductive CodePoint where
  | char (c : Char)
  | surrogate (place : Fin 2048)
deriving Repr, DecidableEq, Inhabited

namespace CodePoint

/-- The code point with a number below `0x110000`. -/
def ofNat (n : Nat) : CodePoint :=
  if h : 0xd800 ≤ n ∧ n < 0xe000 then surrogate ⟨n - 0xd800, by omega⟩ else char (Char.ofNat n)

def isSurrogate : CodePoint → Bool
  | char _ => false
  | surrogate _ => true

/-- Whether it is a character of a kind. -/
def isA (kind : Char → Bool) : CodePoint → Bool
  | char c => kind c
  | surrogate _ => false

/-- What stands for a code point where only characters can be shown. -/
def shown : CodePoint → Char
  | char c => c
  | surrogate _ => '\uFFFD'

end CodePoint

abbrev LooseText := List CodePoint

namespace LooseText

def ofChars (s : List Char) : LooseText :=
  s.map .char

def ofString (s : String) : LooseText :=
  ofChars s.toList

/-- The text with a mark in the place of each surrogate. -/
def shown (t : LooseText) : String :=
  String.ofList (t.map CodePoint.shown)

/-- The characters in front of the first surrogate. -/
def leading : LooseText → List Char
  | .char c :: rest => c :: leading rest
  | _ => []

/-- The failure of writing a text in UTF-8. -/
def fault? (t : LooseText) : Option Unexpected :=
  let start := t.leading.length
  match (t.drop start).takeWhile CodePoint.isSurrogate with
  | [] => none
  | [.surrogate place] =>
    some (unencodable (" '\\u" ++ String.ofList (Text.hexText 4 (0xd800 + place)) ++
      s!"' in position {start}"))
  | run => some (unencodable s!"s in position {start}-{start + run.length - 1}")
where
  unencodable (place : String) : Unexpected :=
    ⟨"UnicodeEncodeError",
      "'utf-8' codec can't encode character" ++ place ++ ": surrogates not allowed"⟩

/-- The text, if it can be written in UTF-8. -/
def strict (t : LooseText) : Except Unexpected String :=
  match t.fault? with
  | none => .ok t.shown
  | some failure => .error failure

end LooseText

end RepoAtlas
