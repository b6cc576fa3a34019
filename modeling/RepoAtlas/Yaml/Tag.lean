import RepoAtlas.Text.Trim
import RepoAtlas.Yaml.Cursor
import RepoAtlas.Yaml.Moment

/-!
Tags: the kinds of YAML values. Text without quotes gets its kind from its
shape.
-/
namespace RepoAtlas.Yaml

inductive Tag where
  | null
  | bool
  | int
  | float
  | binary
  | timestamp
  | omap
  | pairs
  | set
  | str
  | seq
  | map
  /-- The key that takes in the entries of other mappings. -/
  | merge
  /-- The key whose value a mapping stands for where a scalar is wanted. -/
  | value
  | other (name : String)
deriving Repr, DecidableEq, Inhabited

namespace Tag

/-- What the names of the common tags start with. -/
def common : String := "tag:yaml.org,2002:"

/-- The last parts of the names of the common tags. -/
def words : List (String × Tag) :=
  [("null", null), ("bool", bool), ("int", int), ("float", float), ("binary", binary),
    ("timestamp", timestamp), ("omap", omap), ("pairs", pairs), ("set", set), ("str", str),
    ("seq", seq), ("map", map), ("merge", merge), ("value", value)]

def ofName (name : String) : Tag :=
  match Text.afterStart? common.toList name.toList with
  | some word => (words.lookup (String.ofList word)).getD (other name)
  | none => other name

end Tag

/-! ### Kinds by shape -/

def boolWords : List String :=
  ["yes", "Yes", "YES", "no", "No", "NO", "true", "True", "TRUE", "false", "False", "FALSE",
    "on", "On", "ON", "off", "Off", "OFF"]

def withoutSign : List Char → List Char
  | '-' :: rest => rest
  | '+' :: rest => rest
  | s => s

def isDigitOrGap (c : Char) : Bool :=
  c.isDigit || c == '_'

/-- A digit and any number of digits and underscores. -/
def isDigits : List Char → Bool
  | c :: rest => c.isDigit && rest.all isDigitOrGap
  | [] => false

/-- A part of a number in base 60 after the first one. -/
def isSixtieth : List Char → Bool
  | [c] => c.isDigit
  | [c, d] => '0' ≤ c && c ≤ '5' && d.isDigit
  | _ => false

/-- Parts between colons: a first one and at least one of base 60. -/
def isSexagesimal (first : List Char → Bool) (s : List Char) : Bool :=
  match Text.splitAt (· == ':') s with
  | head :: part :: parts => first head && (part :: parts).all isSixtieth
  | _ => false

def isOctalOrGap (c : Char) : Bool :=
  ('0' ≤ c && c ≤ '7') || c == '_'

/-- Digits that do not start with a zero. -/
def isPositive (s : List Char) : Bool :=
  isDigits s && s.head? != some '0'

/-- Whether a text has the shape of a whole number. -/
def isIntShape (s : List Char) : Bool :=
  match withoutSign s with
  | ['0'] => true
  | '0' :: 'b' :: rest => !rest.isEmpty && rest.all fun c => c == '0' || c == '1' || c == '_'
  | '0' :: 'x' :: rest => !rest.isEmpty && rest.all fun c => isHexDigit c || c == '_'
  | '0' :: rest => rest.all isOctalOrGap
  | body => isPositive body || isSexagesimal isPositive body

/-- Nothing, or an exponent with its sign. -/
def isExponent : List Char → Bool
  | [] => true
  | e :: sign :: digits =>
    (e == 'e' || e == 'E') && (sign == '-' || sign == '+') && !digits.isEmpty &&
      digits.all Char.isDigit
  | _ => false

/-- What may follow the point of a number. -/
def isFraction (s : List Char) : Bool :=
  isExponent (s.dropWhile isDigitOrGap)

/-- Whether a text has the shape of a floating-point number. -/
def isFloatShape (s : List Char) : Bool :=
  let body := withoutSign s
  let whole := body.takeWhile (· != '.')
  match body.drop whole.length with
  | '.' :: rest =>
    if whole.isEmpty then
      let word := String.ofList rest
      (s == body && (isDigits (rest.takeWhile isDigitOrGap) && isFraction rest ||
        ["nan", "NaN", "NAN"].contains word)) || ["inf", "Inf", "INF"].contains word
    else
      (isDigits whole && isFraction rest) ||
        (isSexagesimal isDigits whole && rest.all isDigitOrGap)
  | _ => false

/-- Whether a text has the shape of a date or a point in time. -/
def isMomentShape (s : List Char) : Bool :=
  (Moment.ofChars? s).any fun m => m.time.isSome || m.wide

/-- The text without a line feed at its end. -/
def withoutLastBreak (s : String) : List Char :=
  (Text.beforeEnd? ['\n'] s.toList).getD s.toList

/-- The kind that the shape of a text without quotes tells. -/
def Tag.ofShape (text : String) : Tag :=
  let s := withoutLastBreak text
  let word := String.ofList s
  if boolWords.contains word then .bool
  else if isFloatShape s then .float
  else if isIntShape s then .int
  else if word == "<<" then .merge
  else if ["", "~", "null", "Null", "NULL"].contains word then .null
  else if isMomentShape s then .timestamp
  else if word == "=" then .value
  else if ["!", "&", "*"].contains word then .other (Tag.common ++ "yaml")
  else .str

end RepoAtlas.Yaml
