import RepoAtlas.Cache.Record
import RepoAtlas.Event
import RepoAtlas.Failure
import RepoAtlas.Log
import RepoAtlas.Number.Quantity

/-!
What an analysis asks of the world around it, and what it is answered. Every
question may be answered by a failure.
-/
namespace RepoAtlas

/-- The two ways of getting at the files of a repository. -/
inductive Mode where
  /-- File by file. -/
  | remote
  /-- All files at once, in an archive. -/
  | archive
deriving Repr, DecidableEq, Inhabited

namespace Mode

def name : Mode → String
  | remote => "remote"
  | archive => "archive"

def ofName? (s : String) : Option Mode :=
  [remote, archive].find? fun m => m.name == s

end Mode

/-- Where the files of an analysis come from. -/
inductive Origin where
  | hosted (repository : Coordinates) (mode : Mode)
  | folder (path : String)
deriving Repr, DecidableEq, Inhabited

/-- What is known of a source before it is opened. -/
structure SourceInfo where
  repository : Coordinates
  /-- The folder of a source on disk. -/
  root : String := ""
deriving Repr, DecidableEq, Inhabited

inductive Action where
  /-- Asks the cache for a record. -/
  | lookup (location branch : String)
  /-- Chooses a source, without opening it. -/
  | choose (origin : Origin)
  | openSource
  | closeSource
  | list
  | read (path : String)
  /-- Looks for the entity in a file. -/
  | examine (path content : String)
  | pause (delay : Quantity)
  /-- Puts a result into the cache. -/
  | store (location branch : String) (entities : List Entity) (files : List FileRecord)
      (repository : Coordinates)
  | report (record : LogRecord)

namespace Action

/-- What a successful action gives. -/
abbrev Reply : Action → Type
  | lookup .. => Option CacheRecord
  | choose _ => SourceInfo
  | list => List FileRecord
  | read _ => String
  | examine .. => Option Entity
  | _ => Unit

end Action

/-- The answer to an action. -/
abbrev Answer (a : Action) : Type :=
  Except Failure a.Reply

end RepoAtlas
