import RepoAtlas.Text.Loose

/-!
Text whose characters take two or four bytes. It is read strictly, where halves
of surrogate pairs may stand alone, or with marks for all that is no character.
-/
namespace RepoAtlas.Wide

/-- What stands in the place of bytes that are no text. -/
def mark : Char := '\uFFFD'

/-- The number that some bytes write, the most significant one first unless `little`. -/
def number (little : Bool) (bytes : List UInt8) : Nat :=
  (if little then bytes.reverse else bytes).foldl (fun n b => n * 256 + b.toNat) 0

def isHigh (unit : Nat) : Bool := 0xd800 ≤ unit && unit < 0xdc00

def isLow (unit : Nat) : Bool := 0xdc00 ≤ unit && unit < 0xe000

/--
The code points in units of two bytes, in which two units may make up one
character. Bytes that are none, as at an end that is cut off, are told apart.
-/
def points16 (little : Bool) : List UInt8 → List (Option CodePoint)
  | a :: b :: c :: d :: rest =>
    let unit := number little [a, b]
    let next := number little [c, d]
    if isHigh unit && isLow next then
      some (.char (Char.ofNat (0x10000 + (unit - 0xd800) * 1024 + (next - 0xdc00)))) ::
        points16 little rest
    else some (.ofNat unit) :: points16 little (c :: d :: rest)
  | [a, b, _] =>
    let unit := number little [a, b]
    if isHigh unit then [none] else [some (.ofNat unit), none]
  | [a, b] => [some (.ofNat (number little [a, b]))]
  | [_] => [none]
  | [] => []

/-- The code points in units of four bytes. Bytes that are none are told apart. -/
def points32 (little : Bool) : List UInt8 → List (Option CodePoint)
  | a :: b :: c :: d :: rest =>
    let code := number little [a, b, c, d]
    (if code < 0x110000 then some (.ofNat code) else none) :: points32 little rest
  | [] => []
  | _ => [none]

/-- As `points16`, with a mark for the order of the bytes in front, which may be missing. -/
def markedPoints16 : List UInt8 → List (Option CodePoint)
  | 0xfe :: 0xff :: rest => points16 false rest
  | 0xff :: 0xfe :: rest => points16 true rest
  | bytes => points16 true bytes

/-- As `points32`, with a mark for the order of the bytes in front, which may be missing. -/
def markedPoints32 : List UInt8 → List (Option CodePoint)
  | 0 :: 0 :: 0xfe :: 0xff :: rest => points32 false rest
  | 0xff :: 0xfe :: 0 :: 0 :: rest => points32 true rest
  | bytes => points32 true bytes

/-- The text of some code points, if all bytes were code points. -/
def strict? (points : List (Option CodePoint)) : Option LooseText :=
  points.mapM id

/-- The text of some code points, with a mark for all that is no character. -/
def lossy (points : List (Option CodePoint)) : List Char :=
  points.map fun point => (point.map CodePoint.shown).getD mark

end RepoAtlas.Wide
