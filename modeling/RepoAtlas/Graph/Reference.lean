import RepoAtlas.SourceModule.Naming

/-!
What a name refers to among some entities: one that is declared by that name,
else one that exports it, else one whose file is called so.
-/
namespace RepoAtlas

/-- What a name refers to: the entity in a file, or nothing known. -/
inductive Reference where
  | unresolved (name : String)
  | resolved (name file : String)
deriving Repr, DecidableEq, Inhabited

namespace Reference

/-- The name that stands for a reference. -/
def name : Reference → String
  | unresolved name => name
  | resolved name _ => name

def file? : Reference → Option String
  | unresolved _ => none
  | resolved _ file => some file

end Reference

/-- Three tables of entities; in each the last one that claims a name keeps it. -/
structure ReferenceIndex where
  byName : Table Entity := []
  byExport : Table Entity := []
  byFilename : Table Entity := []
deriving Repr, Inhabited

namespace ReferenceIndex

def add (index : ReferenceIndex) (e : Entity) : ReferenceIndex :=
  let stem := stemOf e.file
  { byName := Table.set e.name e index.byName
    byExport := e.exports.foldl (fun table name => Table.set name e table) index.byExport
    byFilename := Table.set (Unicode.capitalize stem) e (Table.set stem e index.byFilename) }

def ofEntities (entities : List Entity) : ReferenceIndex :=
  entities.foldl add {}

/-- The entity that a name refers to. -/
def find? (index : ReferenceIndex) (name : String) : Option Entity :=
  (Table.get? name index.byName).or
    ((Table.get? name index.byExport).or (Table.get? name index.byFilename))

def lookup (index : ReferenceIndex) (name : String) : Reference :=
  match index.find? name with
  | some e => .resolved e.name e.file
  | none => .unresolved name

end ReferenceIndex

end RepoAtlas
