import RepoAtlas.Cache.Eviction
import RepoAtlas.Cache.Folder
import RepoAtlas.Cache.Key
import RepoAtlas.Cache.Record
import RepoAtlas.Log
import RepoAtlas.Text.Timestamp

/-!
The cache of analyses: a folder with one document for each repository and
branch. Trouble with files is reported and never handed on; a document that no
longer counts is removed when it is asked for, and all such when one is stored.
-/
namespace RepoAtlas

/-- The settings of a cache. -/
structure RepoCache where
  /-- The path of the folder. -/
  directory : String
  /-- How many seconds a record counts. -/
  ttl : Quantity := .whole 86400
  /-- How many bytes the records may take together. -/
  maxBytes : Int := 104857600
  version : String := "1.0.0"
  digest : String → String := Sha256.hexDigest
  /-- The size of the folder that a name among the records leads to, and when it was changed. -/
  folderExtent : String → Int × Binary64 := fun _ => (4096, .zero)

/-- What an operation leaves behind: the folder, a value or a failure, and reports. -/
structure CacheStep (α : Type) where
  folder : CacheFolder
  result : Except Unexpected α
  records : List LogRecord := []

/-- How much a cache holds, and when its files were changed. -/
structure CacheStats where
  count : Nat := 0
  totalBytes : Int := 0
  oldest : Option String := none
  newest : Option String := none
deriving Repr, DecidableEq, Inhabited

/-- The steps of storing a record that can go wrong. -/
inductive PutStep where
  | makeFolder
  | createTemporary
  | writeText
  | replaceRecord
deriving Repr, DecidableEq

/-- What storing needs of the world around the cache. -/
structure PutContext where
  now : Binary64
  /-- The time that the file system gives to a file it writes. -/
  stamp : Binary64
  /-- The name of the temporary file. -/
  temporary : String
  /-- Trouble at a step, as the file system words it. -/
  trouble : PutStep → Option String := fun _ => none

namespace RepoCache

def key (c : RepoCache) (location branch : String) : String :=
  c.digest (fingerprint location branch)

/-- The path of a file in the folder. -/
def pathOf (c : RepoCache) (name : String) : String :=
  ((PurePath.ofString c.directory).join (PurePath.ofString name)).toString

def logger : String := "cache"

/-- Removes a file. Says what is left, whether it was removed, and what is reported. -/
def discard (c : RepoCache) (name : String) (entries : Entries) :
    Entries × Bool × List LogRecord :=
  match removeFile name entries with
  | .removed rest => (rest, true, [])
  | .absent => (entries, false, [])
  | .failed fault =>
    (entries, false, [.warning logger
      ("Failed to remove cache record " ++ name ++ ": " ++ fault.message (c.pathOf name))])

/-- Removes a file of a folder; the operation that does so finds nothing. -/
def miss (c : RepoCache) (folder : CacheFolder) (name : String) (report : LogRecord) :
    CacheStep (Option CacheRecord) :=
  match folder with
  | .present entries =>
    let (rest, _, records) := c.discard name entries
    ⟨.present rest, .ok none, report :: records⟩
  | _ => ⟨folder, .ok none, [report]⟩

/-- What to do with the bytes that were read from a record's file. -/
def judge (c : RepoCache) (now : Binary64) (location branch : String) (folder : CacheFolder)
    (bytes : List UInt8) : CacheStep (Option CacheRecord) :=
  let key := c.key location branch
  let name := recordName key
  let place := location ++ "#" ++ branch
  match CacheRecord.document bytes with
  | .error corrupt =>
    match CacheRecord.tooDeep? corrupt with
    | some failure => ⟨folder, .error failure, []⟩
    | none => c.miss folder name (.warning logger
        ("Discarding corrupt cache record " ++ name ++ ": " ++ corrupt.message))
  | .ok document =>
    if CacheRecord.isCurrent c.version now document then
      match CacheRecord.ofJson key document with
      | .error failure => ⟨folder, .error failure, []⟩
      | .ok none => c.miss folder name (.warning logger
          ("Discarding malformed cache record " ++ name))
      | .ok (some record) => ⟨folder, .ok (some record), [.info logger ("Cache hit for " ++ place)]⟩
    else c.miss folder name (.debug logger ("Cache record for " ++ place ++ " is stale; removing"))

/--
The record of a location and a branch, if there is one that counts. A path that
no file can have is not foreseen.
-/
def get (c : RepoCache) (now : Binary64) (location branch : String) (folder : CacheFolder) :
    CacheStep (Option CacheRecord) :=
  let name := recordName (c.key location branch)
  match folder.read name with
  | .ok bytes => c.judge now location branch folder bytes
  | .error .missing => ⟨folder, .ok none, []⟩
  | .error .nullCharacter =>
    ⟨folder, .error (FileFault.nullCharacter.unexpected (c.pathOf name)), []⟩
  | .error fault => ⟨folder, .ok none, [.warning logger
      ("Failed to read cache record " ++ name ++ ": " ++ fault.message (c.pathOf name))]⟩

/-- As `get`, for texts that have to be written in UTF-8 first. -/
def getLoose (c : RepoCache) (now : Binary64) (location branch : LooseText)
    (folder : CacheFolder) : CacheStep (Option CacheRecord) :=
  match (looseFingerprint location branch).fault? with
  | some failure => ⟨folder, .error failure, []⟩
  | none => c.get now location.shown branch.shown folder

/-- The size of what a name in the folder leads to, and when it was changed. -/
def extentOf (c : RepoCache) (name : String) : DiskNode → Int × Binary64
  | .file bytes modified => (bytes.length, modified)
  | _ => c.folderExtent name

/-- What the choice of records to remove is told about the file of one. -/
def summary? (c : RepoCache) (now : Binary64) (entries : Entries) (name : String) :
    Except Unexpected (Option RecordSummary) :=
  match (DiskNode.folder entries).stat [name] with
  | .error _ => .ok none
  | .ok node =>
    let (size, modified) := c.extentOf name node
    let found (valid : Bool) : RecordSummary :=
      { key := (PurePath.splitSuffix name).1, modified, size, valid }
    match node with
    | .file bytes _ =>
      match CacheRecord.document bytes with
      | .ok document => .ok (some (found (CacheRecord.isCurrent c.version now document)))
      | .error corrupt =>
        match CacheRecord.tooDeep? corrupt with
        | some failure => .error failure
        | none => .ok (some (found false))
    | _ => .ok (some (found false))

/-- What the choice of records to remove is told. -/
def summaries (c : RepoCache) (now : Binary64) (entries : Entries) :
    Except Unexpected (List RecordSummary) := do
  let found ← (recordNames entries).mapM (c.summary? now entries)
  pure (found.filterMap id)

/-- Removes one record that has to go. -/
def evictOne (c : RepoCache) (state : Entries × List LogRecord) (key : String) :
    Entries × List LogRecord :=
  let (entries, records) := state
  let (rest, removed, reports) := c.discard (recordName key) entries
  (rest, records ++ reports ++
    if removed then [.debug logger ("Evicted cache record " ++ key)] else [])

/-- Removes the records that have to go. -/
def evict (c : RepoCache) (now : Binary64) (entries : Entries) :
    Except Unexpected (Entries × List LogRecord) := do
  let found ← c.summaries now entries
  let keys := (planEvictions c.maxBytes found).mergeSort fun a b => a ≤ b
  pure (keys.foldl c.evictOne (entries, []))

/-- Trouble with putting a file in the place of another: a folder is not replaced. -/
def replaceTrouble (c : RepoCache) (temporary name : String) (entries : Entries) :
    Option String :=
  match Table.get? name entries with
  | some (.folder _) =>
    some (FileFault.isFolder.message (c.pathOf temporary) ++ " -> " ++ Text.quoted (c.pathOf name))
  | _ => none

/--
Writes a file beside the old one and puts it in its place. Says what is in the
folder then, and what went wrong, in which case the new file is taken away.
-/
def writeRecord (c : RepoCache) (context : PutContext) (name : String) (bytes : List UInt8)
    (entries : Entries) : Entries × Option String :=
  let drop := DiskNode.setEntry context.temporary none
  match context.trouble .createTemporary with
  | some text => (entries, some text)
  | none =>
    let created := DiskNode.setEntry context.temporary (some (.file [] context.stamp)) entries
    match context.trouble .writeText with
    | some text => (drop created, some text)
    | none =>
      let written :=
        DiskNode.setEntry context.temporary (some (.file bytes context.stamp)) created
      match (context.trouble .replaceRecord).or
          (c.replaceTrouble context.temporary name written) with
      | some text => (drop written, some text)
      | none => (DiskNode.setEntry name (some (.file bytes context.stamp)) (drop written), none)

/-- The record that is stored for the result of an analysis. -/
def newRecord (c : RepoCache) (now : Binary64) (location branch : String)
    (entities : List Entity) (files : List FileRecord) (repository : Coordinates) :
    Except Unexpected CacheRecord := do
  let ttl ← c.ttl.toReal
  pure {
    key := c.key location branch
    location, branch
    timestamp := now
    expiresAt := now.add ttl
    version := c.version
    entities, files, repository }

/-- The report on a record that could not be stored. -/
def putFailed (record : CacheRecord) (text : String) : LogRecord :=
  .error logger
    ("Failed to write cache record for " ++ record.location ++ "#" ++ record.branch ++ ": " ++ text)

/-- Stores a record and removes those that have to go. -/
def putRecord (c : RepoCache) (context : PutContext) (record : CacheRecord)
    (folder : CacheFolder) : CacheStep Unit :=
  match context.trouble .makeFolder with
  | some text => ⟨folder, .ok (), [putFailed record text]⟩
  | none =>
    match folder.make with
    | .error fault => ⟨folder, .ok (), [putFailed record (fault.message c.directory)]⟩
    | .ok entries =>
      match c.writeRecord context (recordName record.key) record.toBytes entries with
      | (entries, some text) => ⟨.present entries, .ok (), [putFailed record text]⟩
      | (entries, none) =>
        let report : LogRecord := .info logger
          (s!"Cached {record.entities.length} entities for " ++ record.location ++ "#" ++
            record.branch)
        match c.evict context.now entries with
        | .error failure => ⟨.present entries, .error failure, [report]⟩
        | .ok (entries, records) => ⟨.present entries, .ok (), report :: records⟩

/-- Stores the result of an analysis. -/
def put (c : RepoCache) (context : PutContext) (location branch : String)
    (entities : List Entity) (files : List FileRecord) (repository : Coordinates)
    (folder : CacheFolder) : CacheStep Unit :=
  match c.newRecord context.now location branch entities files repository with
  | .error failure => ⟨folder, .error failure, []⟩
  | .ok record => c.putRecord context record folder

/-- As `put`, for texts that have to be written in UTF-8 first. -/
def putLoose (c : RepoCache) (context : PutContext) (location branch : LooseText)
    (entities : List Entity) (files : List FileRecord) (repository : Coordinates)
    (folder : CacheFolder) : CacheStep Unit :=
  match (looseFingerprint location branch).fault? with
  | some failure => ⟨folder, .error failure, []⟩
  | none => c.put context location.shown branch.shown entities files repository folder

/-- The report on a folder that cannot be listed. -/
def listFailed (c : RepoCache) (fault : FileFault) : LogRecord :=
  .warning logger
    ("Failed to list cache directory " ++ c.directory ++ ": " ++ fault.message c.directory)

/-- The earliest of some times, or the latest. -/
def extreme (better : Binary64 → Binary64 → Bool) : List Binary64 → Option Binary64
  | [] => none
  | x :: rest => some (rest.foldl (fun best y => if better y best then y else best) x)

/-- How much the cache holds. -/
def stats (c : RepoCache) (folder : CacheFolder) : CacheStep CacheStats :=
  match folder.list with
  | .error fault => ⟨folder, .ok {}, [c.listFailed fault]⟩
  | .ok entries =>
    let extents := (recordNames entries).filterMap fun name =>
      ((DiskNode.folder entries).stat [name]).toOption.map (c.extentOf name)
    let times := extents.map Prod.snd
    ⟨folder, do
      let oldest ← (extreme Binary64.lt times).mapM Timestamp.text
      let newest ← (extreme (fun a b => b.lt a) times).mapM Timestamp.text
      pure {
        count := extents.length
        totalBytes := (extents.map Prod.fst).foldr (· + ·) 0
        oldest, newest }, []⟩

/-- Removes one record and counts it. -/
def clearOne (c : RepoCache) (state : Entries × Nat × List LogRecord) (name : String) :
    Entries × Nat × List LogRecord :=
  let (entries, count, records) := state
  let (rest, removed, reports) := c.discard name entries
  (rest, if removed then count + 1 else count, records ++ reports)

/-- Removes all records. Gives their number. -/
def clear (c : RepoCache) (folder : CacheFolder) : CacheStep Nat :=
  match folder.list with
  | .error fault => ⟨folder, .ok 0, [c.listFailed fault]⟩
  | .ok entries =>
    let (rest, count, records) := (recordNames entries).foldl c.clearOne (entries, 0, [])
    let cleared := match folder with
      | .present _ => .present rest
      | other => other
    ⟨cleared, .ok count, records ++ [.info logger s!"Cleared {count} cache records"]⟩

end RepoCache

end RepoAtlas
