import RepoAtlas.Entity
import RepoAtlas.Json.Writer

/-!
The events of an analysis, and how they are sent: one frame of an event stream
for each of them.
-/
namespace RepoAtlas

inductive Event where
  | status (message : String)
  | files (records : List FileRecord) (repository : Coordinates)
  | progress (current total : Int) (path : String)
  | component (entity : Entity)
  /-- The end of a run that succeeded. -/
  | complete (entities : List Entity) (totalFiles analyzedFiles : Int) (fromCache : Bool)
  /-- The end of a run that failed. -/
  | error (message : String)
deriving Repr, DecidableEq, Inhabited

namespace Event

def toJson : Event → Json
  | status message => .obj [("type", .str "status"), ("message", .str message)]
  | files records repository =>
    .obj [("type", .str "files"), ("allFiles", .arr (records.map FileRecord.toJson)),
      ("repository", repository.toJson)]
  | progress current total path =>
    .obj [("type", .str "progress"), ("current", .int current), ("total", .int total),
      ("path", .str path)]
  | component entity => .obj [("type", .str "component"), ("component", entity.toJson)]
  | complete entities totalFiles analyzedFiles fromCache =>
    .obj [("type", .str "complete"), ("components", .arr (entities.map Entity.toJson)),
      ("totalFiles", .int totalFiles), ("analyzedFiles", .int analyzedFiles),
      ("fromCache", .bool fromCache)]
  | error message => .obj [("type", .str "error"), ("message", .str message)]

/-- Whether an event ends a run. -/
def isTerminal : Event → Bool
  | complete .. | error _ => true
  | _ => false

/-- The frame of an event in a stream: a line of data and an empty one. -/
def frame (e : Event) : String :=
  "data: " ++ e.toJson.compact ++ "\n\n"

end Event

end RepoAtlas
