import RepoAtlas.Text.Trim

/-!
Paths as text: the names between slashes, without looking at any file.
-/
namespace RepoAtlas

/--
A path cut into its names. Empty names and single dots leave no trace, and the
root is kept apart: empty for a relative path, else one slash or exactly two.
-/
structure PurePath where
  root : String
  names : List String
deriving Repr, DecidableEq, Inhabited

namespace PurePath

/-- The slashes that make up the root of a path. -/
def rootOf : List Char → String
  | '/' :: '/' :: '/' :: _ => "/"
  | '/' :: '/' :: _ => "//"
  | '/' :: _ => "/"
  | _ => ""

def ofString (path : String) : PurePath where
  root := rootOf path.toList
  names := (Text.splitOnChar '/' path).filter fun name => name != "" && name != "."

/-- The path as text; a dot stands for the empty relative path. -/
def toString (p : PurePath) : String :=
  if p.root == "" && p.names.isEmpty then "." else p.root ++ "/".intercalate p.names

instance : ToString PurePath := ⟨toString⟩

/-- The last name, empty if there is none. -/
def name (p : PurePath) : String :=
  p.names.getLast?.getD ""

/-- The names before the last. -/
def directories (p : PurePath) : List String :=
  p.names.dropLast

def parent (p : PurePath) : PurePath :=
  { p with names := p.names.dropLast }

def isAbsolute (p : PurePath) : Bool :=
  p.root != ""

/-- The path that `q` denotes when `p` is the current directory. -/
def join (p q : PurePath) : PurePath :=
  if q.isAbsolute then q else { p with names := p.names ++ q.names }

/-- The last name with its ending from the last dot on, which neither starts nor ends the name. -/
def splitSuffix (name : String) : String × String :=
  let chars := name.toList
  let ending := (chars.reverse.takeWhile (· != '.')).reverse
  let dots := chars.length - ending.length
  if ending.isEmpty || dots ≤ 1 then (name, "")
  else (String.ofList (chars.take (dots - 1)), String.ofList ('.' :: ending))

/-- The ending of the last name, with its dot. -/
def suffix (p : PurePath) : String :=
  (splitSuffix p.name).2

/-- The last name without its ending. -/
def stem (p : PurePath) : String :=
  (splitSuffix p.name).1

end PurePath

end RepoAtlas
