import RepoAtlas.SourceModule.Read
import RepoAtlas.Analysis.Candidate

/-!
The analysis of one file.
-/
namespace RepoAtlas

namespace Entity

/-- The entity of a module. -/
def ofModule (path content : String) (facts : ModuleFacts) : Entity :=
  let name := facts.unitName path
  { name
    role := Role.ofFile path content
    file := path
    description := facts.description
    props := (Table.get? (name ++ "Props") facts.interfaces).getD []
    uses := facts.references
    exports := facts.exports
    content
    isClient := facts.isClient }

/--
The entity in a file. A file that is no candidate has none, and neither has one
that cannot be parsed, which is reported.
-/
def ofFile (path content : String) : Logged (Option Entity) :=
  if isCandidate path content then do
    match ← ModuleFacts.read path content with
    | some facts => pure (some (ofModule path content facts))
    | none =>
      Logged.tell (.warning "analyzers.component"
        ("Skipping " ++ path ++ ": " ++ ModuleFacts.unreadableMessage path))
      pure none
  else pure none

end Entity

end RepoAtlas
