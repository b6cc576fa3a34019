import RepoAtlas.Number.Shortest
import RepoAtlas.Table
import RepoAtlas.Text.Loose

/-!
JSON values. Integers of any size and floating-point numbers are told apart, as
are strings with halves of surrogate pairs in them. Objects keep the order in
which their keys were first set.
-/
namespace RepoAtlas

inductive Json where
  | null
  | bool (b : Bool)
  | int (i : Int)
  | real (x : Binary64)
  | str (s : String)
  /-- A string that cannot be written in UTF-8. -/
  | loose (t : LooseText)
  | arr (items : List Json)
  | obj (fields : List (String × Json))
deriving Repr, Inhabited

namespace Json

/-- The value of a field; values that are no objects have none. -/
def get? (v : Json) (key : String) : Option Json :=
  match v with
  | obj fields => Table.get? key fields
  | _ => none

/-- What stands for a value in a test: emptiness and zero count as false. -/
def truthy : Json → Bool
  | null => false
  | bool b => b
  | int i => i != 0
  | real x => !x.isZero
  | str s => s != ""
  | loose t => !t.isEmpty
  | arr items => !items.isEmpty
  | obj fields => !fields.isEmpty

/-- The value of a text. -/
def ofText (t : LooseText) : Json :=
  match t.strict with
  | .ok s => str s
  | .error _ => loose t

/-- The text of a string. -/
def text? : Json → Option LooseText
  | str s => some (.ofString s)
  | loose t => some t
  | _ => none

/-- The text of a string, with marks where it cannot be written. -/
def string? : Json → Option String
  | str s => some s
  | loose t => some t.shown
  | _ => none

/-- The items of a list; any other value has none. -/
def items : Json → List Json
  | arr items => items
  | _ => []

def strings (items : List String) : Json :=
  arr (items.map str)

def ofOption (f : α → Json) : Option α → Json
  | some a => f a
  | none => null

end Json

end RepoAtlas
