import RepoAtlas.Cache.Store
import RepoAtlas.Proofs.Cache.Record

/-!
What is done to a cache from outside, and the table in memory that a cache is
to behave like.
-/
namespace RepoAtlas

/-- A step of using a cache. -/
inductive CacheOperation where
  /-- The file that is written gets the time `stamp`, and its first name is made from `tag`. -/
  | put (location branch : String) (entities : List Entity) (files : List FileRecord)
      (repository : Coordinates) (stamp : Binary64) (tag : String)
  | get (location branch : String)
  | stats
  | clear
  /-- The clock goes on to another time. -/
  | advance (now : Binary64)
  /-- The folder is opened as a cache with other settings. -/
  | reopen (ttl : Quantity) (maxBytes : Int) (version : String)

namespace CacheOperation

/-- The text that tells which record an operation is about. -/
def fingerprint? : CacheOperation → Option String
  | put location branch .. => some (fingerprint location branch)
  | get location branch => some (fingerprint location branch)
  | _ => none

/--
Whether an operation is one that records are made for: entities whose
descriptions are kept in JSON, files of the known types, and times of the clock
that are numbers of the format.
-/
def Admissible : CacheOperation → Prop
  | put _ _ entities files _ _ _ => (∀ e ∈ entities, e.Described) ∧ ∀ file ∈ files, file.Typed
  | advance now => now.Valid
  | _ => True

instance : DecidablePred Admissible
  | put _ _ entities files _ _ _ =>
    inferInstanceAs (Decidable ((∀ e ∈ entities, e.Described) ∧ ∀ file ∈ files, file.Typed))
  | advance now => inferInstanceAs (Decidable now.Valid)
  | get .. | stats | clear | reopen .. => isTrue trivial

end CacheOperation

/-- A cache with its clock and its folder. -/
structure OpenCache where
  cache : RepoCache
  now : Binary64
  folder : CacheFolder

namespace OpenCache

/-- What storing finds around the cache when nothing goes wrong. -/
def context (s : OpenCache) (stamp : Binary64) (tag : String) : PutContext where
  now := s.now
  stamp := stamp
  temporary := ".tmp-" ++ tag ++ ".part"

/-- One operation: what it leaves behind, and what it answers. -/
def step (s : OpenCache) :
    CacheOperation → OpenCache × List (Except Unexpected (Option CacheRecord))
  | .put location branch entities files repository stamp tag =>
    let stored := s.cache.put (s.context stamp tag) location branch entities files repository
      s.folder
    ({ s with folder := stored.folder }, [])
  | .get location branch =>
    let found := s.cache.get s.now location branch s.folder
    ({ s with folder := found.folder }, [found.result])
  | .stats => ({ s with folder := (s.cache.stats s.folder).folder }, [])
  | .clear => ({ s with folder := (s.cache.clear s.folder).folder }, [])
  | .advance now => ({ s with now }, [])
  | .reopen ttl maxBytes version =>
    ({ s with cache := { s.cache with ttl, maxBytes, version } }, [])

/-- What the operations answer one after another. -/
def answers (s : OpenCache) :
    List CacheOperation → List (Except Unexpected (Option CacheRecord))
  | [] => []
  | operation :: rest => (s.step operation).2 ++ answers (s.step operation).1 rest

end OpenCache

/-- A record in memory, with the time at which it was written. -/
structure StoredRecord where
  record : CacheRecord
  written : Binary64

namespace StoredRecord

/-- Whether a record is of this version and expires after `now`. -/
def isCurrent (version : String) (now : Binary64) (s : StoredRecord) : Bool :=
  s.record.version == version && now.lt s.record.expiresAt

/-- What the choice of records to remove is told about a record. -/
def summary (version : String) (now : Binary64) (s : StoredRecord) : RecordSummary where
  key := s.record.key
  modified := s.written
  size := s.record.size
  valid := s.isCurrent version now

/-- Whether the file of a record comes no later in the folder than that of another. -/
def notAfter (a b : StoredRecord) : Bool :=
  recordName a.record.key ≤ recordName b.record.key

end StoredRecord

/-- A table of records in memory, with the settings of the cache that it stands for. -/
structure CacheMap where
  ttl : Quantity
  maxBytes : Int
  version : String
  now : Binary64
  /-- The records under their fingerprints. -/
  records : Table StoredRecord

namespace CacheMap

/-- What the choice of records to remove is told. -/
def summaries (m : CacheMap) : List RecordSummary :=
  ((m.records.map Prod.snd).mergeSort StoredRecord.notAfter).map
    (StoredRecord.summary m.version m.now)

/-- The table without the records that have to go. -/
def evict (m : CacheMap) : CacheMap :=
  let doomed := planEvictions m.maxBytes m.summaries
  { m with records := m.records.filter fun entry => !doomed.contains entry.2.record.key }

/--
Sets a record and removes those that have to go. Where the time to live is too
large for any time of expiry nothing is set.
-/
def put (m : CacheMap) (location branch : String) (entities : List Entity)
    (files : List FileRecord) (repository : Coordinates) (stamp : Binary64) : CacheMap :=
  match m.ttl.toReal with
  | .error _ => m
  | .ok ttl =>
    let record : CacheRecord := {
      key := cacheKey location branch
      location, branch
      timestamp := m.now
      expiresAt := m.now.add ttl
      version := m.version
      entities, files, repository }
    evict { m with
      records := Table.set (fingerprint location branch) ⟨record, stamp⟩ m.records }

/-- The record under a location and a branch. One that does not count any more is removed. -/
def get (m : CacheMap) (location branch : String) : CacheMap × Option CacheRecord :=
  match Table.get? (fingerprint location branch) m.records with
  | none => (m, none)
  | some stored =>
    if stored.isCurrent m.version m.now then (m, some stored.record)
    else
      ({ m with records := m.records.filter fun entry => entry.1 != fingerprint location branch },
        none)

def step (m : CacheMap) : CacheOperation → CacheMap × List (Option CacheRecord)
  | .put location branch entities files repository stamp _ =>
    (m.put location branch entities files repository stamp, [])
  | .get location branch => ((m.get location branch).1, [(m.get location branch).2])
  | .stats => (m, [])
  | .clear => ({ m with records := [] }, [])
  | .advance now => ({ m with now }, [])
  | .reopen ttl maxBytes version => ({ m with ttl, maxBytes, version }, [])

def answers (m : CacheMap) : List CacheOperation → List (Option CacheRecord)
  | [] => []
  | operation :: rest => (m.step operation).2 ++ answers (m.step operation).1 rest

end CacheMap

end RepoAtlas
