import RepoAtlas.Json.Value

/-!
What requests to the service carry: objects whose fields go by the name that is
used on the wire or by a plain one. All fields that do not do are named at once.
-/
namespace RepoAtlas

/-- The name of a field on the wire, and its plain name. -/
structure FieldName where
  wire : String
  plain : String
deriving Repr, DecidableEq, Inhabited

/-- A field that was read, or else the name that it went by. -/
abbrev FieldReading (α : Type) := Except String α

namespace FieldName

/-- A field with one name. -/
def same (name : String) : FieldName :=
  ⟨name, name⟩

/-- The value of a field and the name it goes by. The name on the wire comes first. -/
def find? (n : FieldName) (v : Json) : Option (String × Json) :=
  match v.get? n.wire with
  | some found => some (n.wire, found)
  | none => (v.get? n.plain).map fun found => (n.plain, found)

/-- Reads a field that has to be there. -/
def required (n : FieldName) (read? : Json → Option α) (v : Json) : FieldReading α :=
  match n.find? v with
  | none => .error n.wire
  | some (name, found) => (read? found).elim (.error name) .ok

/-- Reads a field that has a default. -/
def optional (n : FieldName) (default : α) (read? : Json → Option α) (v : Json) :
    FieldReading α :=
  match n.find? v with
  | none => .ok default
  | some (name, found) => (read? found).elim (.error name) .ok

end FieldName

/-- Words for a truth value. -/
def truthWords : List (String × Bool) :=
  [("0", false), ("off", false), ("f", false), ("false", false), ("n", false), ("no", false),
    ("1", true), ("on", true), ("t", true), ("true", true), ("y", true), ("yes", true)]

/-- A truth value, which may be written as a word or a number. -/
def truthOf? : Json → Option Bool
  | .bool b => some b
  | .str s => Table.get? (s.map Char.toLower) truthWords
  | .int 0 => some false
  | .int 1 => some true
  | .real x =>
    if x.same .zero then some false else if x.same (.ofInt 1) then some true else none
  | _ => none

/-- A text, or nothing. -/
def textOrNull? : Json → Option (Option String)
  | .null => some none
  | .str s => some (some s)
  | _ => none

/-- The names of the fields that could not be read. -/
def faultyField : FieldReading α → List String
  | .ok _ => []
  | .error name => [name]

/-- What is asked of the service's analysis. -/
structure AnalyzePayload where
  location : String
  branch : String
  allFiles : Bool
  useCache : Bool
  mode : Option String
deriving Repr, DecidableEq, Inhabited

def locationField : FieldName := ⟨"repoUrl", "repo_url"⟩
def branchField : FieldName := .same "branch"
def allFilesField : FieldName := ⟨"includeAllFiles", "include_all_files"⟩
def useCacheField : FieldName := ⟨"useCache", "use_cache"⟩
def modeField : FieldName := .same "mode"
def pathField : FieldName := ⟨"filePath", "file_path"⟩

namespace AnalyzePayload

/-- Reads the fields of an object, or names those that do not do. -/
def ofObject (v : Json) : Except (List String) AnalyzePayload :=
  let location := locationField.required Json.string? v
  let branch := branchField.optional "main" Json.string? v
  let allFiles := allFilesField.optional false truthOf? v
  let useCache := useCacheField.optional true truthOf? v
  let mode := modeField.optional none textOrNull? v
  match location, branch, allFiles, useCache, mode with
  | .ok location, .ok branch, .ok allFiles, .ok useCache, .ok mode =>
    .ok { location, branch, allFiles, useCache, mode }
  | _, _, _, _, _ =>
    .error (faultyField location ++ faultyField branch ++ faultyField allFiles ++
      faultyField useCache ++ faultyField mode)

end AnalyzePayload

/-- Which file is asked for. -/
structure FilePayload where
  location : String
  path : String
  branch : String
deriving Repr, DecidableEq, Inhabited

namespace FilePayload

/-- Reads the fields of an object, or names those that do not do. -/
def ofObject (v : Json) : Except (List String) FilePayload :=
  let location := locationField.required Json.string? v
  let path := pathField.required Json.string? v
  let branch := branchField.optional "main" Json.string? v
  match location, path, branch with
  | .ok location, .ok path, .ok branch => .ok { location, path, branch }
  | _, _, _ => .error (faultyField location ++ faultyField path ++ faultyField branch)

end FilePayload

end RepoAtlas
