import RepoAtlas.Analysis.Analyzer
import RepoAtlas.Cache.Store
import RepoAtlas.Config.Settings
import RepoAtlas.Pipeline.Handler
import RepoAtlas.Repository.LocalTree

/-!
Worlds made of a source of files and a cache. A source is what it answers, and
how that changes its state.
-/
namespace RepoAtlas

/-- The answer of a source, its state after that, and what is reported. -/
structure Reply (σ α : Type) where
  result : Except Failure α
  state : σ
  records : List LogRecord := []

/-- A source of files with states `σ`. -/
structure Source (σ : Type) where
  choose : Origin → σ → Reply σ SourceInfo
  openIt : σ → Reply σ Unit
  closeIt : σ → Reply σ Unit
  list : σ → Reply σ (List FileRecord)
  read : String → σ → Reply σ String

/-- The state of a world: that of its source and its cache, and what has happened in it. -/
structure World (σ : Type) where
  source : σ
  folder : CacheFolder := .absent
  pauses : List Quantity := []
  records : List LogRecord := []

/-- What stays the same in a world: its source, its cache, and how files are looked into. -/
structure WorldLaws (σ : Type) where
  source : Source σ
  cache : RepoCache
  context : PutContext
  examine : String → String → Logged (Except Failure (Option Entity)) :=
    fun path content => .ok <$> Entity.ofFile path content

namespace World

/-- Takes over the answer of a source. -/
def withReply (w : World σ) (r : Reply σ α) : Except Failure α × World σ :=
  (r.result, { w with source := r.state, records := w.records ++ r.records })

/-- Takes over the outcome of an operation on the cache. -/
def withStep (w : World σ) (s : CacheStep α) : Except Failure α × World σ :=
  (s.result.mapError .unexpected, { w with folder := s.folder, records := w.records ++ s.records })

end World

namespace WorldLaws

def perform (laws : WorldLaws σ) : (action : Action) → World σ → Answer action × World σ
  | .lookup location branch, w =>
    w.withStep (laws.cache.get laws.context.now location branch w.folder)
  | .choose origin, w => w.withReply (laws.source.choose origin w.source)
  | .openSource, w => w.withReply (laws.source.openIt w.source)
  | .closeSource, w => w.withReply (laws.source.closeIt w.source)
  | .list, w => w.withReply (laws.source.list w.source)
  | .read path, w => w.withReply (laws.source.read path w.source)
  | .examine path content, w =>
    let found := laws.examine path content
    (found.value, { w with records := w.records ++ found.records })
  | .pause delay, w => (.ok (), { w with pauses := w.pauses ++ [delay] })
  | .store location branch entities files repository, w =>
    w.withStep (laws.cache.put laws.context location branch entities files repository w.folder)
  | .report record, w => (.ok (), { w with records := w.records ++ [record] })

def handler (laws : WorldLaws σ) : Handler (World σ) where
  perform := laws.perform

end WorldLaws

namespace RepoCache

/-- The cache that some settings describe. -/
def ofSettings (s : CacheSettings) : Except Unexpected RepoCache :=
  s.maxBytes.map fun maxBytes =>
    { directory := s.directory.toString, ttl := s.ttlSeconds, maxBytes }

end RepoCache

/-- The sources that are folders of one disk; the state is the chosen one. -/
def folderSource (disk : DiskNode) (current : List String) (excludes : List String) :
    Source (Option LocalTree) where
  choose origin _ :=
    match origin with
    | .hosted .. => ⟨.error (.generic "no folder"), none, []⟩
    | .folder path =>
      match LocalTree.openAt disk current path excludes none with
      | .ok tree => ⟨.ok ⟨tree.coordinates, DiskNode.pathText tree.folder⟩, some tree, []⟩
      | .error cause => ⟨.error (.unexpected cause), none, []⟩
  openIt tree := ⟨.ok (), tree, []⟩
  closeIt tree := ⟨.ok (), tree, []⟩
  list tree := ⟨.ok ((tree.map fun t => t.files disk).getD []), tree, []⟩
  read path tree :=
    ⟨(tree.map fun t => t.readText disk path).getD (.ok ""), tree, []⟩

end RepoAtlas
