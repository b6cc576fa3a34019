import RepoAtlas.Failure

/-!
Text that must be ASCII.
-/
namespace RepoAtlas.Ascii

def isAscii (c : Char) : Bool := c.toNat < 128

/-- A character as the wording of a fault shows it. -/
def shown (c : Char) : String :=
  let n := c.toNat
  String.ofList <|
    if n < 256 then '\\' :: 'x' :: Text.hexText 2 n
    else if n < 65536 then '\\' :: 'u' :: Text.hexText 4 n
    else '\\' :: 'U' :: Text.hexText 8 n

/-- The failure of writing a text in ASCII. -/
def fault? (s : String) : Option Unexpected :=
  let start := (s.toList.takeWhile isAscii).length
  match (s.toList.drop start).takeWhile (!isAscii ·) with
  | [] => none
  | [c] => some (unencodable (" '" ++ shown c ++ s!"' in position {start}"))
  | run => some (unencodable s!"s in position {start}-{start + run.length - 1}")
where
  unencodable (place : String) : Unexpected :=
    ⟨"UnicodeEncodeError",
      "'ascii' codec can't encode character" ++ place ++ ": ordinal not in range(128)"⟩

end RepoAtlas.Ascii
