import RepoAtlas.Log
import RepoAtlas.Graph.Reference

/-!
Resolving the references between entities: what each uses is named by the
entity it refers to, and each entity learns by which others it is used.
-/
namespace RepoAtlas

/-- The names other than `name`, each once. -/
def withoutName (name : String) (names : List String) : List String :=
  Text.distinct (names.filter (· != name))

/-- The positions of the files of some entities; of a repeated file the last one counts. -/
def filePositions (entities : List Entity) : Table Nat :=
  entities.zipIdx.foldl (fun table (e, i) => Table.set e.file i table) []

/-- The users of each entity, by its position. -/
abbrev Users := List (List String)

namespace Users

/-- Notes that the entity at `position` is used by `name`. -/
def note (name : String) (position : Nat) (users : Users) : Users :=
  users.modify position fun known => if known.contains name then known else known ++ [name]

/-- Notes all uses by the entity at a position; it is no user of itself. -/
def noteUses (index : ReferenceIndex) (positions : Table Nat) (users : Users)
    (user : Entity × Nat) : Users :=
  user.1.uses.foldl (fun users raw =>
    match (index.lookup raw).file?.bind fun file => Table.get? file positions with
    | some target => if target == user.2 then users else note user.1.name target users
    | none => users) users

/-- The users of each of some entities. -/
def ofEntities (entities : List Entity) : Users :=
  entities.zipIdx.foldl (noteUses (ReferenceIndex.ofEntities entities) (filePositions entities))
    (entities.map fun _ => [])

end Users

/-- The names that an entity uses, each replaced by the one of the entity it refers to. -/
def resolvedUses (index : ReferenceIndex) (e : Entity) : List String :=
  withoutName e.name (e.uses.map fun raw => (index.lookup raw).name)

/-- The entities with their uses resolved and their users listed. -/
def resolve (entities : List Entity) : List Entity :=
  let index := ReferenceIndex.ofEntities entities
  List.zipWith (fun e users => { e with
      uses := resolvedUses index e
      usedBy := withoutName e.name users })
    entities (Users.ofEntities entities)

/-- How many references of some entities lead to one of them. -/
def resolvedCount (entities : List Entity) : Nat :=
  let index := ReferenceIndex.ofEntities entities
  ((entities.flatMap Entity.uses).filter fun raw => (index.find? raw).isSome).length

/-- The report on a resolution. -/
def resolveRecord (entities : List Entity) : LogRecord :=
  .debug "resolver"
    s!"Resolved {resolvedCount entities} references across {entities.length} entities"

end RepoAtlas
