import RepoAtlas.Number.Quantity
import RepoAtlas.Number.Reading
import RepoAtlas.Yaml.Value

/-!
Settings out of YAML values. What has the wrong type counts as absent, except
that numbers may be written as text and text as numbers.
-/
namespace RepoAtlas.Yaml.Value

/-- A text or a number as text. -/
def asText? : Value → Except Unexpected (Option String)
  | scalar (.text s) => .ok (some s)
  | scalar (.int i) => (NumberText.writeWhole i).map some
  | scalar (.real x) => .ok (some x.toText)
  | _ => .ok none

/-- A number, which may be too large a whole one. -/
def asReal? : Value → Except Unexpected (Option Binary64)
  | scalar (.real x) => .ok (some x)
  | scalar (.int i) => (Quantity.whole i).toReal.map some
  | scalar (.text s) => .ok (NumberText.readReal s).toOption
  | _ => .ok none

def asWhole? : Value → Option Int
  | scalar (.int i) => some i
  | scalar (.text s) => (NumberText.readWhole 10 s).toOption
  | _ => none

def asBool? : Value → Option Bool
  | scalar (.bool b) => some b
  | scalar (.text s) =>
    let word := Unicode.lowercase (Text.trim s)
    if ["true", "yes", "1"].contains word then some true
    else if ["false", "no", "0"].contains word then some false
    else none
  | _ => none

/-- An item of a list as text; truth values count as numbers here. -/
def itemText? : Value → Except Unexpected (Option String)
  | scalar (.bool b) => .ok (some (if b then "True" else "False"))
  | v => v.asText?

/-- A list of texts, or one text as a list. -/
def asTexts : Value → Except Unexpected (List String)
  | scalar (.text s) => .ok [s]
  | scalar (.bytes b) => .ok (b.map fun byte => toString byte.toNat)
  | list items => (items.mapM itemText?).map fun texts => texts.filterMap id
  | _ => .ok []

/-- The entries of a mapping that has any. -/
def section? (v : Value) (name : String) : Option Value :=
  (v.get? name).filter fun inner =>
    match inner with
    | mapping entries => !entries.isEmpty
    | _ => false

end RepoAtlas.Yaml.Value
