import RepoAtlas.Config.Lenient
import RepoAtlas.Config.Settings
import RepoAtlas.Disk.Session

/-!
Reading the settings: from a file, if there is one, and from the environment.
-/
namespace RepoAtlas

/-- The name of the file that holds the settings of a project. -/
def settingsName : String := ".compgraph.yml"

/-- How the text of a settings file is read. -/
abbrev YamlReader := List Char → Except Yaml.Fault Yaml.Value

/-- What reads a part of the settings out of an entry of a mapping, if it is there. -/
def readEntry (v : Yaml.Value) (name : String)
    (read : Yaml.Value → Except Unexpected (Option α)) : Except Unexpected (Option α) :=
  match v.get? name with
  | some entry => read entry
  | none => .ok none

/-- A text that is not empty. -/
def readFilled (v : Yaml.Value) (name : String) : Except Unexpected (Option String) :=
  (readEntry v name Yaml.Value.asText?).map (·.filter (· != ""))

namespace CacheSettings

def ofYaml (v : Yaml.Value) : Except Unexpected CacheSettings := do
  let base : CacheSettings := {}
  let directory ← readFilled v "directory"
  let ttl ← readEntry v "ttl_hours" Yaml.Value.asReal?
  let maxSize ← readEntry v "max_size_mb" Yaml.Value.asReal?
  let enabled ← readEntry v "enabled" (.ok ·.asBool?)
  return {
    directory := (directory.map PurePath.ofString).getD base.directory
    ttlHours := (ttl.map .real).getD base.ttlHours
    maxSizeMb := (maxSize.map .real).getD base.maxSizeMb
    enabled := enabled.getD base.enabled }

end CacheSettings

namespace HostSettings

/-- An address without slashes at its end. -/
def baseAddress (given : Option String) (default : String) : String :=
  Text.trimEnd (· == '/') (given.getD default)

def ofYaml (v : Yaml.Value) : Except Unexpected HostSettings := do
  let base : HostSettings := {}
  let token ← readEntry v "token" Yaml.Value.asText?
  let api ← readFilled v "api_base"
  let raw ← readFilled v "raw_base"
  let timeout ← readEntry v "timeout" Yaml.Value.asReal?
  let agent ← readFilled v "user_agent"
  return {
    token
    apiBase := baseAddress api base.apiBase
    rawBase := baseAddress raw base.rawBase
    timeout := (timeout.map .real).getD base.timeout
    userAgent := agent.getD base.userAgent }

end HostSettings

namespace AnalysisSettings

/-- The two ways of getting at the files of a repository. -/
def modes : List String := ["remote", "archive"]

def unknownMode (mode : String) : Failure :=
  .badConfig ("analysis.mode must be 'remote' or 'archive', got " ++ Text.quoted mode)

def ofYaml (v : Yaml.Value) : Except Failure AnalysisSettings := do
  let base : AnalysisSettings := {}
  let mode := (← (readFilled v "mode").mapError .unexpected).getD base.mode
  if !modes.contains mode then throw (unknownMode mode)
  let delay ← (readEntry v "pace_delay" Yaml.Value.asReal?).mapError .unexpected
  let excludes ← (match v.get? "exclude_paths" with
    | some entry => entry.asTexts
    | none => .ok []).mapError .unexpected
  return {
    mode
    paceEvery := ((v.get? "pace_every").bind Yaml.Value.asWhole?).getD base.paceEvery
    paceDelay := (delay.map .real).getD base.paceDelay
    maxFiles := (v.get? "max_files").bind Yaml.Value.asWhole?
    excludePaths := excludes }

end AnalysisSettings

namespace Settings

/-- A section of a file, or what holds without it. -/
def sectionOf (data : Yaml.Value) (name : String) (base : α)
    (read : Yaml.Value → Except Failure α) : Except Failure α :=
  match data.section? name with
  | some inner => read inner
  | none => .ok base

/-- The settings in a mapping, the environment left aside. -/
def ofYaml (root : PurePath) (data : Yaml.Value) : Except Failure Settings := do
  let cache ← sectionOf data "cache" {} fun v => (CacheSettings.ofYaml v).mapError .unexpected
  let host ← sectionOf data "github" {} fun v => (HostSettings.ofYaml v).mapError .unexpected
  let analysis ← sectionOf data "analysis" {} AnalysisSettings.ofYaml
  return { root, cache, host, analysis }

/-- The mapping in the text of a file; an empty text holds an empty one. -/
def mappingOf (parse : YamlReader) (name text : String) : Except Failure Yaml.Value :=
  if Text.trim text == "" then .ok (.mapping [])
  else
    match parse text.toList with
    | .error .malformed => .error (.badConfig ("Failed to parse " ++ name))
    | .error (.unexpected cause) => .error (.unexpected cause)
    | .ok (.scalar .null) => .ok (.mapping [])
    | .ok (.mapping entries) => .ok (.mapping entries)
    | .ok _ => .error (.badConfig (name ++ " must contain a mapping at the root"))

/-- The settings with what the environment says, and with the cache folder below the root. -/
def inSession (s : Session) (settings : Settings) : Settings :=
  let directory := ((s.setting? "COMPGRAPH_CACHE_DIR").map PurePath.ofString).getD
    settings.cache.directory
  let token := (settings.host.token.filter (· != "")).or
    ((s.setting? "COMPGRAPH_GITHUB_TOKEN").or (s.setting? "GITHUB_TOKEN"))
  { settings with
    cache := { settings.cache with directory := settings.root.join directory }
    host := { settings.host with token } }

/-- The path of the settings file that a path stands for: itself, or the one in a folder. -/
def fileOf (s : Session) (path : PurePath) : Except Unexpected (List String) := do
  let path ← s.expanded path
  let names := s.absolute path
  match s.disk.stat names with
  | .ok (.folder _) => s.disk.resolve (names ++ [settingsName])
  | .error .longName => throw (FileFault.longName.unexpected path.toString)
  | _ => s.disk.resolve names

/-- The text of a file, which must be UTF-8. -/
def readFile (s : Session) (names : List String) : Except Unexpected String :=
  match s.disk.read names with
  | .error fault => .error (fault.unexpected (DiskNode.pathText names))
  | .ok bytes =>
    match Utf8.decode bytes with
    | .error fault => .error ⟨"UnicodeDecodeError", fault.message⟩
    | .ok chars => .ok (String.ofList (Text.universalNewlines chars))

/-- The settings for a path, or for the folder in which the program runs. -/
def load (parse : YamlReader) (s : Session) (path : Option PurePath) : Except Failure Settings := do
  let names ← (fileOf s (path.getD ⟨"/", s.current⟩)).mapError .unexpected
  let root : PurePath := ⟨"/", names.dropLast⟩
  let present ← (s.disk.hasPath names).mapError fun fault =>
    .unexpected (fault.unexpected (DiskNode.pathText names))
  let data ← if present then do
      let text ← (readFile s names).mapError .unexpected
      mappingOf parse (names.getLast?.getD "") text
    else pure (.mapping [])
  return inSession s (← ofYaml root data)

end Settings

end RepoAtlas
