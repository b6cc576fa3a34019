import RepoAtlas.Unicode.Char

/-!
Cutting characters off the ends of a text, and cutting a text into parts.
-/
namespace RepoAtlas.Text

/-- Drops the characters at the end that satisfy `p`. -/
def dropEndWhile (p : Char → Bool) (s : List Char) : List Char :=
  (s.reverse.dropWhile p).reverse

/-- Drops the characters at both ends that satisfy `p`. -/
def trimWhile (p : Char → Bool) (s : List Char) : List Char :=
  dropEndWhile p (s.dropWhile p)

/-- The text without white space at its ends. -/
def trim (s : String) : String :=
  String.ofList (trimWhile Unicode.isBlank s.toList)

/-- The text without the characters at its start that satisfy `p`. -/
def trimStart (p : Char → Bool) (s : String) : String :=
  String.ofList (s.toList.dropWhile p)

/-- The text without the characters at its end that satisfy `p`. -/
def trimEnd (p : Char → Bool) (s : String) : String :=
  String.ofList (dropEndWhile p s.toList)

/-- Whether `start` begins the list `s`. -/
def beginsWith (start s : List Char) : Bool :=
  start.isPrefixOf s

/-- Whether `ending` ends the list `s`. -/
def endsIn (ending s : List Char) : Bool :=
  ending.isSuffixOf s

/-- Whether the text `s` begins with `start`. -/
def isStartOf (start s : String) : Bool :=
  beginsWith start.toList s.toList

/-- Whether the text `s` ends with `ending`. -/
def isEndingOf (ending s : String) : Bool :=
  endsIn ending.toList s.toList

/-- What follows `start` at the beginning of `s`. -/
def afterStart? (start s : List Char) : Option (List Char) :=
  if beginsWith start s then some (s.drop start.length) else none

/-- What comes before `ending` at the end of `s`. -/
def beforeEnd? (ending s : List Char) : Option (List Char) :=
  if endsIn ending s then some (s.take (s.length - ending.length)) else none

/-- The parts between the characters that satisfy `p`: one more than there are such characters. -/
def splitAt (p : Char → Bool) : List Char → List (List Char)
  | [] => [[]]
  | c :: rest =>
    if p c then [] :: splitAt p rest
    else
      match splitAt p rest with
      | [] => [[c]]
      | part :: parts => (c :: part) :: parts

theorem splitAt_ne_nil (p : Char → Bool) (s : List Char) : splitAt p s ≠ [] := by
  induction s with
  | nil => simp [splitAt]
  | cons c rest _ =>
    unfold splitAt
    split
    · simp
    · split <;> simp

/-- Parts put together again with `separator` between them. -/
def joinWith (separator : List Char) : List (List Char) → List Char
  | [] => []
  | [part] => part
  | part :: parts => part ++ separator ++ joinWith separator parts

theorem joinWith_splitAt (c : Char) (s : List Char) :
    joinWith [c] (splitAt (· == c) s) = s := by
  induction s with
  | nil => rfl
  | cons d rest ih =>
    unfold splitAt
    cases hs : splitAt (· == c) rest with
    | nil => exact absurd hs (splitAt_ne_nil _ _)
    | cons part parts =>
      rw [hs] at ih
      by_cases h : d = c
      · subst h
        simp [joinWith, ih]
      · have hb : (d == c) = false := by simpa using h
        simp only [hb, Bool.false_eq_true, if_false]
        cases parts with
        | nil => simpa [joinWith] using ih
        | cons next more => simpa [joinWith] using ih

/-- The parts of a text between the characters `c`. -/
def splitOnChar (c : Char) (s : String) : List String :=
  (splitAt (· == c) s.toList).map String.ofList

/-- The characters that end a line. -/
def isLineEnd (c : Char) : Bool :=
  let n := c.toNat
  (10 ≤ n && n ≤ 13) || (28 ≤ n && n ≤ 30) || n == 133 || n == 8232 || n == 8233

/-- Adds a character to the first of some lines. -/
def consLine (c : Char) : List (List Char) → List (List Char)
  | [] => [[c]]
  | line :: lines => (c :: line) :: lines

/--
The lines of a text. A line end closes a line, a carriage return and a line
feed together close one, and nothing follows the last line end.
-/
def lines : List Char → List (List Char)
  | [] => []
  | '\r' :: '\n' :: rest => [] :: lines rest
  | c :: rest => if isLineEnd c then [] :: lines rest else consLine c (lines rest)

/-- Line ends of other systems written as a line feed. -/
def universalNewlines : List Char → List Char
  | [] => []
  | '\r' :: '\n' :: rest => '\n' :: universalNewlines rest
  | '\r' :: rest => '\n' :: universalNewlines rest
  | c :: rest => c :: universalNewlines rest

/-- Keeps the first of equal items. -/
def distinct [BEq α] (items : List α) : List α :=
  items.foldl (fun seen item => if seen.contains item then seen else seen ++ [item]) []

/-- Replaces every occurrence of a non-empty `pattern`. -/
def replaceAll (pattern replacement : List Char) : (fuel : Nat) → List Char → List Char
  | 0, s => s
  | _ + 1, [] => []
  | fuel + 1, c :: rest =>
    match afterStart? pattern (c :: rest) with
    | some tail =>
      if pattern.isEmpty then c :: replaceAll pattern replacement fuel rest
      else replacement ++ replaceAll pattern replacement fuel tail
    | none => c :: replaceAll pattern replacement fuel rest

end RepoAtlas.Text
