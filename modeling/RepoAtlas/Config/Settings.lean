import RepoAtlas.Number.Quantity
import RepoAtlas.Text.PurePath

/-!
The settings of the program and what they are where nothing is set.
-/
namespace RepoAtlas

/-- Where results are kept, for how long, and how much room they may take. -/
structure CacheSettings where
  directory : PurePath := .ofString ".cache/repos"
  ttlHours : Quantity := .real (.ofInt 24)
  maxSizeMb : Quantity := .real (.ofInt 100)
  enabled : Bool := true
deriving Repr, Inhabited

namespace CacheSettings

def ttlSeconds (s : CacheSettings) : Quantity :=
  (s.ttlHours.times 60).times 60

def maxBytes (s : CacheSettings) : Except Unexpected Int :=
  ((s.maxSizeMb.times 1024).times 1024).truncated

end CacheSettings

/-- How the hosting service is asked. -/
structure HostSettings where
  token : Option String := none
  apiBase : String := "https://api.github.com"
  rawBase : String := "https://raw.githubusercontent.com"
  timeout : Quantity := .real (.ofInt 30)
  userAgent : String := "compgraph-analyzer"
deriving Repr, Inhabited

/-- How files are chosen and at what pace they are read. -/
structure AnalysisSettings where
  mode : String := "remote"
  /-- After how many files there is a pause. -/
  paceEvery : Int := 10
  paceDelay : Quantity := .real (.ofDecimal false 1 (-1))
  maxFiles : Option Int := none
  excludePaths : List String := []
deriving Repr, Inhabited

structure Settings where
  root : PurePath := .ofString "/"
  cache : CacheSettings := {}
  host : HostSettings := {}
  analysis : AnalysisSettings := {}
deriving Repr, Inhabited

end RepoAtlas
