import RepoAtlas.Text.Trim

/-!
Wildcard patterns: a star for any text, a question mark for any character, and
square brackets for one of some characters.
-/
namespace RepoAtlas.Glob

/-- What one part of a pattern matches. -/
inductive Part where
  /-- Any number of characters. -/
  | star
  | any
  | char (c : Char)
  /-- One of some ranges of characters, or one of none of them. -/
  | oneOf (negated : Bool) (ranges : List (Char × Char))
deriving Repr, DecidableEq, Inhabited

/-- The runs of characters between the hyphens that make ranges; the first has at least `least`. -/
def runs (least : Nat) (s : List Char) : List (List Char) :=
  match found : (s.drop least).findIdx? (· == '-') with
  | none => [s]
  | some i => s.take (least + i) :: runs 2 (s.drop (least + i + 1))
termination_by s.length
decreasing_by
  have hlt := (List.findIdx?_eq_some_iff_findIdx_eq.mp found).1
  simp only [List.length_drop] at hlt ⊢
  omega

/-- The runs of a set. A hyphen at the end of the set makes no range. -/
def runsOf (s : List Char) : List (List Char) :=
  let all := runs (if s.head? == some '!' then 2 else 1) s
  if all.getLast? == some [] then
    match all.dropLast.getLast? with
    | some before => all.dropLast.dropLast ++ [before ++ ['-']]
    | none => all
  else all

/-- Joins runs whose range would be empty: neither of its ends is in the set. -/
def withoutEmptyRanges : List (List Char) → List (List Char)
  | [] => []
  | run :: rest =>
    match withoutEmptyRanges rest with
    | [] => [run]
    | next :: more =>
      match run.getLast?, next with
      | some last, first :: others =>
        if first < last then (run.dropLast ++ others) :: more else run :: next :: more
      | _, _ => run :: next :: more

def single (c : Char) : Char × Char := (c, c)

/-- The ranges of some runs: from the last character of each to the first of the next. -/
def rangesOf : List (List Char) → List (Char × Char)
  | [] => []
  | [run] => run.map single
  | run :: next :: rest =>
    match run.getLast?, next with
    | some last, first :: others =>
      run.dropLast.map single ++ (last, first) :: rangesOf (others :: rest)
    | _, _ => run.map single ++ single '-' :: rangesOf (next :: rest)
termination_by all => all.length

/-- The part that a set in square brackets stands for. -/
def setPart (inside : List Char) : Part :=
  match withoutEmptyRanges (runsOf inside) with
  | ('!' :: first) :: rest =>
    if first.isEmpty && rest.isEmpty then .any else .oneOf true (rangesOf (first :: rest))
  | all => .oneOf false (rangesOf all)

/-- The characters of a set that has been opened and what follows its end, if it ends. -/
def set? (s : List Char) : Option (List Char × List Char) :=
  let mark := if s.head? == some '!' then 1 else 0
  let mark := if (s.drop mark).head? == some ']' then mark + 1 else mark
  let inside := (s.drop mark).takeWhile (· != ']')
  match s.drop (mark + inside.length) with
  | _ :: rest => some (s.take (mark + inside.length), rest)
  | [] => none

/-- The parts of a pattern. A bracket that opens no set stands for itself. -/
def parse : (fuel : Nat) → List Char → List Part
  | 0, _ => []
  | _ + 1, [] => []
  | fuel + 1, c :: rest =>
    if c == '*' then .star :: parse fuel rest
    else if c == '?' then .any :: parse fuel rest
    else if c == '[' then
      match set? rest with
      | some (inside, after) => setPart inside :: parse fuel after
      | none => .char '[' :: parse fuel rest
    else .char c :: parse fuel rest

/-- The parts of a whole pattern. -/
def ofString (pattern : String) : List Part :=
  parse (pattern.length + 1) pattern.toList

/-- Whether a part that is no star matches a character. -/
def Part.accepts (part : Part) (c : Char) : Bool :=
  match part with
  | star => true
  | any => true
  | char d => c == d
  | oneOf negated ranges => (ranges.any fun (a, b) => a ≤ c && c ≤ b) != negated

/-- A text and all its ends, the longest first. -/
def suffixes : List Char → List (List Char)
  | [] => [[]]
  | c :: rest => (c :: rest) :: suffixes rest

/-- The rests of a text of which some parts match the beginning, the longest first. -/
def rests (parts : List Part) (from_ : List (List Char)) : List (List Char) :=
  match parts with
  | [] => from_
  | .star :: more =>
    rests more (match from_ with
      | longest :: _ => suffixes longest
      | [] => [])
  | part :: more =>
    rests more (from_.filterMap fun s =>
      match s with
      | c :: rest => if part.accepts c then some rest else none
      | [] => none)

/-- Whether a pattern matches a whole text. -/
def matchesText (pattern text : String) : Bool :=
  (rests (ofString pattern) [text.toList]).any List.isEmpty

end RepoAtlas.Glob
