import RepoAtlas.Number.Reading
import RepoAtlas.Text.Base64
import RepoAtlas.Yaml.Tag

/-!
What tagged text stands for.
-/
namespace RepoAtlas.Yaml

/-- A value that is written as text. -/
inductive Scalar where
  | null
  | bool (b : Bool)
  | int (i : Int)
  | real (x : Binary64)
  | text (s : String)
  | bytes (b : List UInt8)
  | moment (m : Moment)
deriving Repr, DecidableEq, Inhabited

namespace Scalar

/-- The failure of asking an empty text for its first character. -/
def emptyNumber : Unexpected :=
  ⟨"IndexError", "string index out of range"⟩

/-- A number without its sign and its underscores: the factor of the sign, and the digits. -/
def unsigned (s : String) : Except Unexpected (Int × List Char) :=
  match s.toList.filter (· != '_') with
  | [] => .error emptyNumber
  | '-' :: rest => .ok (-1, rest)
  | '+' :: rest => .ok (1, rest)
  | digits => .ok (1, digits)

/-- The parts of a number in base 60. -/
def sixtieths (s : List Char) : List String :=
  (Text.splitAt (· == ':') s).map String.ofList

def readInt (s : String) : Except Unexpected Int := do
  let (sign, digits) ← unsigned s
  let whole (base : Nat) (digits : List Char) : Except Unexpected Int :=
    (NumberText.readWhole base (String.ofList digits)).map (sign * ·)
  match digits with
  | [] => .error emptyNumber
  | ['0'] => .ok 0
  | '0' :: 'b' :: rest => whole 2 rest
  | '0' :: 'x' :: rest => whole 16 rest
  | '0' :: _ => whole 8 digits
  | _ =>
    if digits.contains ':' then
      let parts ← (sixtieths digits).mapM (NumberText.readWhole 10)
      return sign * parts.foldl (fun n part => n * 60 + part) 0
    else whole 10 digits

/-- The sum of some parts, the last one first, each worth 60 of the one before. -/
def sexagesimalSum : (sum : Binary64) → (factor : Int) → List Binary64 → Binary64
  | sum, _, [] => sum
  | sum, factor, part :: parts =>
    sexagesimalSum (sum.add (part.mul (.ofInt factor))) (factor * 60) parts

def readReal (s : String) : Except Unexpected Binary64 := do
  let (sign, digits) ← unsigned (Unicode.lowercase s)
  let magnitude : Binary64 ←
    match String.ofList digits with
    | ".inf" => pure (.infinite false)
    | ".nan" => pure .nan
    | plain =>
      if digits.contains ':' then
        let parts ← (sixtieths digits).mapM NumberText.readReal
        pure (sexagesimalSum .zero 1 parts.reverse)
      else NumberText.readReal plain
  return magnitude.mul (.ofInt sign)

def readBool (s : String) : Except Unexpected Bool :=
  let word := Unicode.lowercase s
  if ["yes", "true", "on"].contains word then .ok true
  else if ["no", "false", "off"].contains word then .ok false
  else .error ⟨"KeyError", Text.quoted word⟩

def readMoment (s : String) : Except Unexpected Moment :=
  match Moment.ofChars? (withoutLastBreak s) with
  | some m => m.checked
  | none => .error ⟨"AttributeError", "'NoneType' object has no attribute 'groupdict'"⟩

def readBytes (s : String) : Except Fault (List UInt8) :=
  match Base64.decode s with
  | .ok decoded => .ok decoded
  | .error _ => .error .malformed

/-- The value of a text with a tag. Tags of collections and unknown tags have none. -/
def ofText (tag : Tag) (s : String) : Except Fault Scalar :=
  match tag with
  | .null => .ok null
  | .bool => ((readBool s).map bool).mapError .unexpected
  | .int => ((readInt s).map int).mapError .unexpected
  | .float => ((readReal s).map real).mapError .unexpected
  | .binary => (readBytes s).map bytes
  | .timestamp => ((readMoment s).map moment).mapError .unexpected
  | .str => .ok (text s)
  | _ => .error .malformed

end Scalar

end RepoAtlas.Yaml
