import RepoAtlas.Json.Value

/-!
What an analysis finds and where: entities with their roles and properties,
file records and repository coordinates, and their forms in JSON.
-/
namespace RepoAtlas

/-- What an entity is for. -/
inductive Role where
  | page
  | layout
  | component
  | hook
  | context
  | utility
deriving Repr, DecidableEq, Inhabited

namespace Role

def all : List Role := [page, layout, component, hook, context, utility]

/-- The name of a role in data. -/
def label : Role → String
  | page => "page"
  | layout => "layout"
  | component => "reusable-unit"
  | hook => "stateful-hook"
  | context => "shared-context"
  | utility => "utility"

def ofLabel? (s : String) : Option Role :=
  all.find? fun r => r.label == s

theorem ofLabel?_label (r : Role) : ofLabel? r.label = some r := by
  cases r <;> decide

end Role

/-- One member of the properties that an entity takes. -/
structure InterfaceField where
  name : String
  type : String
  required : Bool
  description : Option String := none
deriving Repr, DecidableEq, Inhabited

/-- A structural unit: what it is called, what it is for, and what it refers to. -/
structure Entity where
  name : String
  role : Role
  file : String
  description : Option String := none
  props : List InterfaceField := []
  uses : List String := []
  usedBy : List String := []
  exports : List String := []
  content : String := ""
  isClient : Bool := false
deriving Repr, DecidableEq, Inhabited

/-- Whether a record of a tree stands for a file or for a directory. -/
inductive EntryKind where
  | blob
  | tree
  /-- Any other word; no reader gives one. -/
  | other (word : String)
deriving Repr, DecidableEq, Inhabited

namespace EntryKind

def label : EntryKind → String
  | blob => "blob"
  | tree => "tree"
  | other word => word

end EntryKind

/-- One entry of a repository's tree. -/
structure FileRecord where
  path : String
  type : EntryKind
  url : String
deriving Repr, DecidableEq, Inhabited

/-- One entry of a repository's tree as a document tells it: its texts may be loose. -/
structure ListedEntry where
  path : LooseText
  type : EntryKind
  url : LooseText
deriving Repr, DecidableEq, Inhabited

/-- The record of an entry, with marks where its texts cannot be written. -/
def ListedEntry.shown (e : ListedEntry) : FileRecord where
  path := e.path.shown
  type := e.type
  url := e.url.shown

/-- Which branch of which repository. -/
structure Coordinates where
  owner : String
  name : String
  branch : String := "main"
deriving Repr, DecidableEq, Inhabited

def Coordinates.slug (c : Coordinates) : String :=
  c.owner ++ "/" ++ c.name

/-- The strings among the items of a list. -/
def Json.stringItems (v : Option Json) : List String :=
  ((v.map Json.items).getD []).filterMap Json.string?

namespace InterfaceField

/-- The form in JSON. An empty description is left out. -/
def toJson (f : InterfaceField) : Json :=
  .obj ([("name", .str f.name), ("type", .str f.type), ("required", .bool f.required)] ++
    match f.description with
    | some d => if d == "" then [] else [("description", .str d)]
    | none => [])

def ofJson? (v : Json) : Option InterfaceField :=
  match v with
  | .obj fields =>
    match (Table.get? "name" fields).bind Json.string?,
        (Table.get? "type" fields).bind Json.string? with
    | some name, some type =>
      some {
        name, type
        required := ((Table.get? "required" fields).map Json.truthy).getD false
        description := (Table.get? "description" fields).bind Json.string? }
    | _, _ => none
  | _ => none

end InterfaceField

namespace Entity

def toJson (e : Entity) : Json :=
  .obj [
    ("name", .str e.name),
    ("role", .str e.role.label),
    ("file", .str e.file),
    ("description", Json.ofOption .str e.description),
    ("props", .arr (e.props.map InterfaceField.toJson)),
    ("uses", Json.strings e.uses),
    ("usedBy", Json.strings e.usedBy),
    ("exports", Json.strings e.exports),
    ("content", .str e.content),
    ("isClient", .bool e.isClient)]

/--
The entity that a value stands for. Name, file and role are needed; any other
part that is missing or of the wrong kind takes its default.
-/
def ofJson? (v : Json) : Option Entity :=
  match v with
  | .obj fields =>
    match (Table.get? "name" fields).bind Json.string?,
        (Table.get? "file" fields).bind Json.string?, Table.get? "role" fields with
    | some name, some file, some (.str role) =>
      (Role.ofLabel? role).map fun role => {
        name, role, file
        description := (Table.get? "description" fields).bind Json.string?
        props := (((Table.get? "props" fields).map Json.items).getD []).filterMap
          InterfaceField.ofJson?
        uses := Json.stringItems (Table.get? "uses" fields)
        usedBy := Json.stringItems (Table.get? "usedBy" fields)
        exports := Json.stringItems (Table.get? "exports" fields)
        content := ((Table.get? "content" fields).bind Json.string?).getD ""
        isClient := ((Table.get? "isClient" fields).map Json.truthy).getD false }
    | _, _, _ => none
  | _ => none

end Entity

namespace FileRecord

def toJson (r : FileRecord) : Json :=
  .obj [("path", .str r.path), ("type", .str r.type.label), ("url", .str r.url)]

/-- Why a value is no file record: it is another value, or its type cannot be looked up. -/
inductive Unreadable where
  | dropped
  | unhashable (typeName : String)
deriving Repr, DecidableEq

end FileRecord

/--
The entry that a value stands for. A list or an object in the place of the type
cannot be compared with the known types, which is an error and not just another
value.
-/
def ListedEntry.ofJson (v : Json) : Except FileRecord.Unreadable ListedEntry :=
  match v with
  | .obj fields =>
    match (Table.get? "path" fields).bind Json.text? with
    | some path =>
      let url := ((Table.get? "url" fields).bind Json.text?).getD []
      match Table.get? "type" fields with
      | some (.str "blob") => .ok { path, type := .blob, url }
      | some (.str "tree") => .ok { path, type := .tree, url }
      | some (.arr _) => .error (.unhashable "list")
      | some (.obj _) => .error (.unhashable "dict")
      | _ => .error .dropped
    | none => .error .dropped
  | _ => .error .dropped

namespace FileRecord

/-- The file record that a value stands for. -/
def ofJson (v : Json) : Except Unreadable FileRecord :=
  (ListedEntry.ofJson v).map ListedEntry.shown

/-- The file records among some values, up to the first whose type cannot be looked up. -/
def listOfJson (values : List Json) : Except String (List FileRecord) :=
  match values with
  | [] => .ok []
  | v :: rest =>
    match ofJson v with
    | .error (.unhashable typeName) => .error typeName
    | .error .dropped => listOfJson rest
    | .ok r =>
      match listOfJson rest with
      | .ok rs => .ok (r :: rs)
      | .error typeName => .error typeName

end FileRecord

namespace Coordinates

def toJson (c : Coordinates) : Json :=
  .obj [("owner", .str c.owner), ("name", .str c.name), ("branch", .str c.branch)]

def ofJson? (v : Json) : Option Coordinates :=
  match v with
  | .obj fields =>
    match (Table.get? "owner" fields).bind Json.string?,
        (Table.get? "name" fields).bind Json.string?,
        ((Table.get? "branch" fields).getD (.str "main")).string? with
    | some owner, some name, some branch => some { owner, name, branch }
    | _, _, _ => none
  | _ => none

end Coordinates

end RepoAtlas
