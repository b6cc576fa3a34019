import RepoAtlas.Config.Load
import RepoAtlas.Hosting.Source
import RepoAtlas.Pipeline.Analysis
import RepoAtlas.Yaml.Value

/-!
The places where the program works: a disk, a network and a clock. Analyses run
there by the settings that are found on the disk.
-/
namespace RepoAtlas

/-- All that a run of the program finds around it. -/
structure Workplace where
  session : Session
  network : Network
  /-- The members of an archive, if the bytes are one. -/
  members : List UInt8 → Option (List Member)
  /-- The names of the scratch folder for archives. -/
  scratch : List String
  context : PutContext

/-- What carries out analyses: settings, and a cache if they want one. -/
structure Analyst where
  settings : Settings
  cache : Option RepoCache

namespace Analyst

def ofSettings (settings : Settings) : Except Unexpected Analyst :=
  if settings.cache.enabled then
    (RepoCache.ofSettings settings.cache).map fun cache => { settings, cache := some cache }
  else .ok { settings, cache := none }

def plan (a : Analyst) : AnalysisPlan :=
  { settings := a.settings.analysis, cached := a.cache.isSome }

/-- The laws of a world with a source of files and the cache. -/
def laws (a : Analyst) (context : PutContext) (source : Source σ) : WorldLaws σ :=
  { source, context, cache := a.cache.getD { directory := "" } }

end Analyst

namespace Workplace

/-- The settings that are found. -/
def settings (p : Workplace) (path : Option PurePath) : Except Failure Settings :=
  Settings.load Yaml.Value.ofText p.session path

/-- The names of the folder of the cache. -/
def cacheNames (p : Workplace) (a : Analyst) : List String :=
  p.session.absolute a.settings.cache.directory

/-- The folder of the cache as it is found. -/
def cacheFolder (p : Workplace) (a : Analyst) : CacheFolder :=
  CacheFolder.ofDisk p.session.disk (p.cacheNames a)

/-- The disk with another folder of the cache. -/
def diskWith (p : Workplace) (a : Analyst) (folder : CacheFolder) : DiskNode :=
  folder.toDisk (p.cacheNames a) p.session.disk

/-- A world in which a source has a state. -/
def world (p : Workplace) (a : Analyst) (source : σ) : World σ :=
  { source, folder := p.cacheFolder a }

/-- The hosted repositories that can be reached. -/
def access (p : Workplace) (a : Analyst) : HostAccess :=
  { settings := a.settings.host, network := p.network, members := p.members, scratch := p.scratch
    disk := p.session.disk }

def hostedHandler (p : Workplace) (a : Analyst) : Handler (World HostedState) :=
  (a.laws p.context (p.access a).source).handler

/-- The world before a hosted repository is chosen. -/
def hostedWorld (p : Workplace) (a : Analyst) : World HostedState :=
  p.world a { repository := default }

def folderHandler (p : Workplace) (a : Analyst) : Handler (World (Option LocalTree)) :=
  (a.laws p.context
    (folderSource p.session.disk p.session.current a.settings.analysis.excludePaths)).handler

def folderWorld (p : Workplace) (a : Analyst) : World (Option LocalTree) :=
  p.world a none

/-- The same place with another disk. -/
def withDisk (p : Workplace) (disk : DiskNode) : Workplace :=
  { p with session := { p.session with disk } }

end Workplace

end RepoAtlas
