import RepoAtlas.Number.Quantity
import RepoAtlas.Entity
import RepoAtlas.Json.Reader
import RepoAtlas.Json.Writer
import RepoAtlas.Text.Utf8

/-!
A stored analysis: what it holds, the JSON document it is written as, and when
a document still counts.
-/
namespace RepoAtlas

/-- The complete result of an analysis under its key. -/
structure CacheRecord where
  key : String
  location : String
  branch : String
  timestamp : Binary64
  expiresAt : Binary64
  version : String
  entities : List Entity
  files : List FileRecord
  repository : Coordinates
deriving Repr, DecidableEq, Inhabited

namespace CacheRecord

/-- The document of a record. -/
def toJson (r : CacheRecord) : Json :=
  .obj [
    ("repoUrl", .str r.location),
    ("branch", .str r.branch),
    ("timestamp", .real r.timestamp),
    ("expiresAt", .real r.expiresAt),
    ("version", .str r.version),
    ("components", .arr (r.entities.map Entity.toJson)),
    ("allFiles", .arr (r.files.map FileRecord.toJson)),
    ("repository", r.repository.toJson)]

/-- The bytes of a record's file. -/
def toBytes (r : CacheRecord) : List UInt8 :=
  Utf8.encode r.toJson.pretty

/-- Whether a time comes before a stored one. -/
def isBefore (now : Binary64) : Json → Bool
  | .int i => now.ltInt i
  | .real x => now.lt x
  | _ => false

/-- Whether a document is of this version and has not expired. -/
def isCurrent (version : String) (now : Binary64) (document : Json) : Bool :=
  match document with
  | .obj fields =>
    match Table.get? "version" fields, Table.get? "expiresAt" fields with
    | some (.str v), some expiresAt => v == version && isBefore now expiresAt
    | _, _ => false
  | _ => false

/-- What the parts of a document besides its lists say. -/
structure Heading where
  location : String
  branch : String
  timestamp : Quantity
  expiresAt : Quantity
  version : String
  repository : Coordinates
deriving Repr, DecidableEq, Inhabited

def heading? (document : Json) : Option Heading :=
  match (document.get? "repository").bind Coordinates.ofJson?,
      (document.get? "repoUrl").bind Json.string?, (document.get? "branch").bind Json.string?,
      (document.get? "timestamp").bind Quantity.ofJson?,
      (document.get? "expiresAt").bind Quantity.ofJson?,
      (document.get? "version").bind Json.string? with
  | some repository, some location, some branch, some timestamp, some expiresAt, some version =>
    some { location, branch, timestamp, expiresAt, version, repository }
  | _, _, _, _, _, _ => none

/-- The failure of comparing a list or an object with a set of words. -/
def unhashable (typeName : String) : Unexpected :=
  ⟨"TypeError", s!"unhashable type: '{typeName}'"⟩

/-- The items under a key of a document. -/
def itemsOf (document : Json) (key : String) : List Json :=
  ((document.get? key).map Json.items).getD []

/--
The record that a current document holds, if all its parts are there. A part of
its files or numbers that cannot be taken as what it should be is a failure.
-/
def ofJson (key : String) (document : Json) : Except Unexpected (Option CacheRecord) :=
  match heading? document with
  | none => .ok none
  | some h => do
    let files ← (FileRecord.listOfJson (itemsOf document "allFiles")).mapError unhashable
    let timestamp ← h.timestamp.toReal
    let expiresAt ← h.expiresAt.toReal
    pure (some {
      key
      location := h.location
      branch := h.branch
      timestamp, expiresAt
      version := h.version
      entities := (itemsOf document "components").filterMap Entity.ofJson?
      files
      repository := h.repository })

/-- Why bytes are no document: they are no text, or the text is no JSON. -/
inductive Corrupt where
  | notText (fault : Utf8.Fault)
  | notJson (text : List Char) (error : Json.ReadError)

/-- The wording of a corruption. -/
def Corrupt.message : Corrupt → String
  | notText fault => fault.message
  | notJson text error => error.message text

/-- The document in some bytes. -/
def document (bytes : List UInt8) : Except Corrupt Json :=
  match Utf8.decode bytes with
  | .error fault => .error (.notText fault)
  | .ok text =>
    match Json.readText text with
    | .error error => .error (.notJson text error)
    | .ok v => .ok v

/-- The failure of reading a document whose brackets are nested too deeply. -/
def tooDeep? : Corrupt → Option Unexpected
  | .notJson text (.tooDeep list) =>
    some ⟨"RecursionError", (Json.ReadError.tooDeep list).message text⟩
  | _ => none

end CacheRecord

end RepoAtlas
