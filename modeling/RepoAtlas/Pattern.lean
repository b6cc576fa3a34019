import RepoAtlas.Unicode.Char

/-!
Patterns of text. A pattern stands for the places at which it can end when it
starts at a given place, so whether it occurs is a search over all places.
-/
namespace RepoAtlas

/-- A place in a text: the character before it, and what follows. -/
structure Place where
  before : Option Char
  rest : List Char
deriving Repr, DecidableEq, Inhabited

inductive Pattern where
  /-- Matches without passing anything. -/
  | nothing
  /-- One character of a class. -/
  | one (accepts : Char → Bool)
  /-- Any number of characters of a class. -/
  | many (accepts : Char → Bool)
  | both (first second : Pattern)
  | either (first second : Pattern)
  | textStart
  /-- The end of the text, or the place before a line feed that ends it. -/
  | textEnd
  /-- A place between a character of a word and another one or an end of the text. -/
  | wordEdge

namespace Pattern

/-- All places that are reached by passing characters of a class. -/
def placesThrough (accepts : Char → Bool) (before : Option Char) : List Char → List Place
  | [] => [⟨before, []⟩]
  | c :: rest =>
    ⟨before, c :: rest⟩ :: if accepts c then placesThrough accepts (some c) rest else []

/-- The places at which a pattern can end that starts at a place. -/
def ends : Pattern → Place → List Place
  | nothing, place => [place]
  | one accepts, place =>
    match place.rest with
    | c :: rest => if accepts c then [⟨some c, rest⟩] else []
    | [] => []
  | many accepts, place => placesThrough accepts place.before place.rest
  | both first second, place => (ends first place).flatMap (ends second)
  | either first second, place => ends first place ++ ends second place
  | textStart, place => if place.before.isNone then [place] else []
  | textEnd, place => if place.rest.isEmpty || place.rest == ['\n'] then [place] else []
  | wordEdge, place =>
    if place.before.any Unicode.isWordChar != place.rest.head?.any Unicode.isWordChar
    then [place] else []

/-- Whether a pattern matches from this place on. -/
def matchesAt (p : Pattern) (place : Place) : Bool :=
  !(p.ends place).isEmpty

/-- Whether a pattern matches at this place or at a later one. -/
def occursFrom (p : Pattern) (before : Option Char) : List Char → Bool
  | [] => p.matchesAt ⟨before, []⟩
  | c :: rest => p.matchesAt ⟨before, c :: rest⟩ || occursFrom p (some c) rest

/-- Whether a pattern occurs in a text. -/
def occursIn (p : Pattern) (s : String) : Bool :=
  p.occursFrom none s.toList

/-- Exactly these characters. -/
def chars : List Char → Pattern
  | [] => nothing
  | [c] => one (· == c)
  | c :: rest => both (one (· == c)) (chars rest)

/-- Exactly this text. -/
def text (s : String) : Pattern :=
  chars s.toList

/-- Patterns one after another. -/
def sequence : List Pattern → Pattern
  | [] => nothing
  | [p] => p
  | p :: rest => both p (sequence rest)

/-- The first of some patterns or one of the others. -/
def choice (first : Pattern) (others : List Pattern) : Pattern :=
  others.foldl either first

/-- A pattern or nothing. -/
def possibly (p : Pattern) : Pattern :=
  either p nothing

/-- One or more characters of a class. -/
def oneOrMore (accepts : Char → Bool) : Pattern :=
  both (one accepts) (many accepts)

/-- Any amount of white space. -/
def blanks : Pattern :=
  many Unicode.isBlank

/-- At least one character of white space. -/
def space : Pattern :=
  oneOrMore Unicode.isBlank

/-- A Latin letter. -/
def letter : Pattern :=
  one Char.isAlpha

/-- A Latin capital letter. -/
def capital : Pattern :=
  one Char.isUpper

end Pattern

end RepoAtlas
