import RepoAtlas.Analysis.Candidate
import RepoAtlas.Config.Settings
import RepoAtlas.Graph.Resolve
import RepoAtlas.Pipeline.Script
import RepoAtlas.Repository.Location

/-!
The analysis of a repository: its files are listed, read one by one and looked
into, and what is found is resolved, stored and handed out. A run ends with
exactly one event that says how.
-/
namespace RepoAtlas

/-- What is asked of an analysis. -/
structure AnalysisRequest where
  location : String
  branch : String := "main"
  allFiles : Bool := false
  useCache : Bool := true
  mode : Option String := none
deriving Repr, DecidableEq, Inhabited

/-- What is fixed for all runs: the settings, and whether there is a cache. -/
structure AnalysisPlan where
  settings : AnalysisSettings := {}
  cached : Bool := true
deriving Inhabited

/-- What has come of the files that were read. -/
structure Tally where
  entities : List Entity := []
  skipped : Nat := 0

namespace Tally

/-- The tally with what came of the file before. -/
def after (t : Tally) (entity : Option Entity) : Tally :=
  { t with entities := entity.toList ++ t.entities }

def afterSkip (t : Tally) : Tally :=
  { t with skipped := t.skipped + 1 }

end Tally

namespace AnalysisPlan

/-- The logger of an analysis. -/
def logger : String := "orchestrator"

/-- Whether there is a pause before the file at a place, counted from one. -/
def pausesBefore (s : AnalysisSettings) (index : Nat) : Bool :=
  0 < s.paceEvery && s.paceDelay.isPositive && 1 < index &&
    ((index : Int) - 1) % s.paceEvery == 0

/-- Looks into a text. A failure is reported, and the file is skipped. -/
def examine (path content : String) : Stage (Option (Option Entity)) := do
  match ← ExceptT.lift (Script.ask (.examine path content)) with
  | .error failure =>
    Stage.tell (.error logger ("Analyzer failed on " ++ path ++ ": " ++ failure.message))
    return none
  | .ok none => return some none
  | .ok (some entity) =>
    Stage.tell (.debug logger
      ("Analyzed " ++ entity.name ++ " (" ++ entity.role.label ++ ") from " ++ entity.file))
    Stage.yield (.component entity)
    return some (some entity)

/-- Reads a file and looks into it. One that cannot be read is reported and skipped. -/
def visit (path : String) : Stage (Option (Option Entity)) := do
  match ← ExceptT.lift (Script.ask (.read path)) with
  | .error (.unreadableFile _ reason) =>
    Stage.tell (.warning logger ("Skipping " ++ path ++ ": " ++ reason))
    return none
  | .error failure => throw failure
  | .ok content => examine path content

/-- Visits files in order; `index` is the place of the first one. -/
def visitAll (s : AnalysisSettings) (total : Nat) : (index : Nat) → List FileRecord → Stage Tally
  | _, [] => return {}
  | index, file :: rest => do
    if pausesBefore s index then Stage.perform (.pause s.paceDelay)
    Stage.yield (.progress index total file.path)
    let found ← visit file.path
    let tally ← visitAll s total (index + 1) rest
    return match found with
      | some entity => tally.after entity
      | none => tally.afterSkip

/-- What is left of a visit to all files of an open source. -/
structure Survey where
  files : List FileRecord
  total : Nat
  tally : Tally

/-- Lists the files of the open source and visits those that are chosen. -/
def survey (s : AnalysisSettings) (repository : Coordinates) (allFiles : Bool) : Stage Survey := do
  let listed ← Stage.perform .list
  let files := listed.filter fun file => !isExcluded file.path
  Stage.yield (.files files repository)
  let chosen := selectCandidates s.maxFiles allFiles files
  Stage.yield (.status s!"Found {chosen.length} files to analyze...")
  let tally ← visitAll s chosen.length 1 chosen
  return ⟨files, chosen.length, tally⟩

/-- Analyzes a source; the result is stored if there is a place to store it at. -/
def analyzeSource (s : AnalysisSettings) (repository : Coordinates) (allFiles : Bool)
    (place : Option String) : Stage Unit := do
  let found ← Stage.withSource (survey s repository allFiles)
  let entities := resolve found.tally.entities
  Stage.tell (resolveRecord found.tally.entities)
  if 0 < found.tally.skipped then
    Stage.tell (.info logger s!"Skipped {found.tally.skipped} unreadable files")
  if let some location := place then
    Stage.perform (.store location repository.branch entities found.files repository)
  Stage.tell (.info logger
    s!"Analysis complete: {entities.length} entities from {found.total} files")
  Stage.yield (.complete entities found.total entities.length false)

/-- Hands out a result that was stored. -/
def replay (s : AnalysisSettings) (record : CacheRecord) (allFiles : Bool) : Stage Unit := do
  Stage.yield (.status "Loaded analysis from cache")
  Stage.yield (.files record.files record.repository)
  record.entities.forM fun entity => Stage.yield (.component entity)
  let total := (selectCandidates s.maxFiles allFiles record.files).length
  Stage.yield (.complete record.entities total record.entities.length true)

def unknownMode (mode : String) : Failure :=
  .badConfig ("Unknown analysis mode " ++ Text.quoted mode)

/-- The mode that is asked for, or else the one that is set. -/
def modeOf (s : AnalysisSettings) (request : AnalysisRequest) : Except Failure Mode :=
  let name := (request.mode.filter (· != "")).getD s.mode
  match Mode.ofName? name with
  | some mode => .ok mode
  | none => .error (unknownMode name)

/-- The location by which the cache knows a repository. -/
def cacheLocation (repository : Coordinates) : String :=
  "https://github.com/" ++ repository.slug

/-- The record that the cache has for a repository, if it is to be asked. -/
def remembered (plan : AnalysisPlan) (request : AnalysisRequest) (repository : Coordinates) :
    Stage (Option CacheRecord) := do
  if request.useCache && plan.cached then
    Stage.yield (.status "Checking cache...")
    Stage.perform (.lookup (cacheLocation repository) repository.branch)
  else return none

def run (plan : AnalysisPlan) (request : AnalysisRequest) : Stage Unit := do
  let repository ← ExceptT.mk (pure (Coordinates.ofLocation request.location request.branch))
  let mode ← ExceptT.mk (pure (modeOf plan.settings request))
  match ← remembered plan request repository with
  | some record => replay plan.settings record request.allFiles
  | none =>
    Stage.yield (.status "Fetching repository structure...")
    Stage.tell (.info logger
      ("Analyzing " ++ repository.slug ++ "@" ++ repository.branch ++ " (" ++ mode.name ++ " mode)"))
    let source ← Stage.perform (.choose (.hosted repository mode))
    analyzeSource plan.settings source.repository request.allFiles
      (if plan.cached then some (cacheLocation repository) else none)

/-- The wording of a failure in the event that ends a run. -/
def shownFailure (failure : Failure) : String :=
  if failure.isForeseen then failure.message else "Analysis failed: " ++ failure.message

/-- The report on a run that failed. -/
def failureRecord (subject : String) (failure : Failure) : LogRecord :=
  .error logger <|
    (if failure.isForeseen then "Analysis of " ++ subject ++ " failed: "
      else "Unexpected failure analyzing " ++ subject ++ ": ") ++ failure.message

/-- A stage that ends the run; if it fails, an event says so. -/
def concluding (subject : String) (stage : Stage Unit) : Script Unit := do
  match ← stage.run with
  | .ok () => return
  | .error failure =>
    Script.tell (failureRecord subject failure)
    Script.yield (.error (shownFailure failure))

/-- The analysis of a hosted repository. -/
def analyze (plan : AnalysisPlan) (request : AnalysisRequest) : Script Unit :=
  concluding request.location (run plan request)

/-- The wording of the failure to find a folder. -/
def shownLocalFailure (failure : Failure) : String :=
  if failure.isStorage then failure.message else "Analysis failed: " ++ failure.message

/-- The analysis of a folder, whose result is never stored. -/
def analyzeFolder (plan : AnalysisPlan) (path : String) (allFiles : Bool) : Script Unit := do
  match ← Script.ask (.choose (.folder path)) with
  | .error failure =>
    Script.tell (.error logger ("Cannot analyze " ++ path ++ ": " ++ failure.message))
    Script.yield (.error (shownLocalFailure failure))
  | .ok source =>
    concluding path do
      Stage.yield (.status ("Scanning " ++ source.root ++ "..."))
      analyzeSource plan.settings source.repository allFiles none

end AnalysisPlan

end RepoAtlas
