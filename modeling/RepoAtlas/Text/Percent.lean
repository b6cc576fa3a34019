import RepoAtlas.Text.Utf8

/-!
Text in addresses: bytes that may not stand there are written with a percent
sign and two hexadecimal digits.
-/
namespace RepoAtlas.Percent

/-- Characters that are never escaped. -/
def isUnreserved (c : Char) : Bool :=
  c.isAlphanum || c == '_' || c == '.' || c == '-' || c == '~'

/-- A byte as a percent sign and two capital digits. -/
def escapeByte (b : UInt8) : List Char :=
  '%' :: (Text.hexText 2 b.toNat).map Char.toUpper

def escapeChar (safe : List Char) (c : Char) : List Char :=
  if isUnreserved c || safe.contains c then [c] else (Utf8.encodeChar c).flatMap escapeByte

/-- A text with every character escaped that is neither unreserved nor one of `safe`. -/
def quote (safe : List Char) (s : String) : String :=
  String.ofList (s.toList.flatMap (escapeChar safe))

/-- A path with its slashes left as they are. -/
def quotePath (s : String) : String :=
  quote ['/'] s

/-- The value of a hexadecimal digit. -/
def hexDigit? (c : Char) : Option Nat :=
  if c.isDigit then some (c.toNat - 48)
  else if 'a' ≤ c && c ≤ 'f' then some (c.toNat - 87)
  else if 'A' ≤ c && c ≤ 'F' then some (c.toNat - 55)
  else none

/-- The bytes of a text with its escapes undone. -/
def unescape : List Char → List UInt8
  | [] => []
  | '%' :: a :: b :: rest =>
    match hexDigit? a, hexDigit? b with
    | some x, some y => UInt8.ofNat (x * 16 + y) :: unescape rest
    | _, _ => Utf8.encodeChar '%' ++ unescape (a :: b :: rest)
  | c :: rest => Utf8.encodeChar c ++ unescape rest

/-- A text with its escapes undone. Bytes that are no characters leave a mark. -/
def unquote (s : String) : String :=
  String.ofList (Utf8.decodeLossy (unescape s.toList))

end RepoAtlas.Percent
