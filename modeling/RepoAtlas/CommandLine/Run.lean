import RepoAtlas.CommandLine.Console
import RepoAtlas.CommandLine.Invocation
import RepoAtlas.Disk.Write
import RepoAtlas.Pipeline.Workplace

/-!
Carrying out a command line.
-/
namespace RepoAtlas

/-- How a run of the program ends. -/
inductive Ending where
  | exits (code : Nat)
  /-- Something was not foreseen. -/
  | escapes (failure : Failure)
deriving Repr, DecidableEq, Inhabited

/-- What a run of the program leaves behind. -/
structure Finish where
  console : Console := {}
  disk : DiskNode
  ending : Ending := .exits 0
  /-- The requests that were sent. -/
  requests : List Request := []
  /-- Where the service has to listen, if it was asked for. -/
  served : Option ServeOptions := none
deriving Inhabited

namespace Workplace

/-- A run that ends with a message on the error output. -/
def stop (p : Workplace) (c : Console) (message : String) : Finish :=
  { console := c.warn message, disk := p.session.disk, ending := .exits 1 }

/-- A run that ends with a failure that was not foreseen. -/
def escape (p : Workplace) (c : Console) (failure : Failure) : Finish :=
  { console := c, disk := p.session.disk, ending := .escapes failure }

/-- Runs a script and shows its progress, unless that is not wanted. -/
def watch (c : Console) (quiet : Bool) (h : Handler (World σ)) (script : Script Unit)
    (w : World σ) : Taken (World σ × Console) :=
  script.watch h.watched
    (fun e state => if quiet then state else (state.1, state.2.see e)) (w, c)

/-- The event that ends a run. -/
def lastEvent (events : List Event) : Event :=
  (events.reverse.find? Event.isTerminal).getD (.error "analysis ended without a result")

/-- What is asked of an analysis. -/
def requestOf (o : AnalyzeOptions) : AnalysisRequest :=
  { location := o.location, branch := o.branch, allFiles := o.allFiles, useCache := o.useCache
    mode := if o.archive then some Mode.archive.name else none }

/-- Writes a result to the output. -/
def showResult (c : Console) (asJson : Bool) (result : Event) : Console :=
  match asJson, result with
  | false, .complete entities total analyzed fromCache =>
    (Console.summary entities total analyzed fromCache).foldl Console.print c
  | _, _ => c.print result.toJson.pretty

def runAnalyze (p : Workplace) (a : Analyst) (c : Console) (o : AnalyzeOptions) : Finish :=
  let taken := watch c o.json (p.hostedHandler a) (a.plan.analyze (requestOf o)) (p.hostedWorld a)
  let (w, c) := taken.state
  let disk := p.diskWith a w.folder
  let requests := w.source.requests
  match lastEvent taken.events with
  | .error message =>
    { (p.withDisk disk).stop c ("compgraph analyze failed: " ++ message) with requests }
  | result => { console := showResult c o.json result, disk, requests }

/-- Writes a result to a file. -/
def writeResult (p : Workplace) (c : Console) (output : PurePath) (result : Event) : Finish :=
  let text := result.toJson.pretty ++ "\n"
  match p.session.disk.writeFile (p.session.absolute output) (Utf8.encode text) p.context.stamp with
  | .error fault => p.escape c (.unexpected (fault.unexpected output.toString))
  | .ok disk =>
    let count := match result with
      | .complete _ _ analyzed _ => analyzed
      | _ => 0
    { console := c.print s!"Wrote {count} entities to {output}", disk }

def runLocal (p : Workplace) (a : Analyst) (c : Console) (o : LocalOptions) : Finish :=
  let taken := watch c o.output.isNone (p.folderHandler a) (a.plan.analyzeFolder o.path false)
    (p.folderWorld a)
  let c := taken.state.2
  match lastEvent taken.events, o.output with
  | .error message, _ => p.stop c ("compgraph local failed: " ++ message)
  | result, some output => p.writeResult c output result
  | result, none => { console := showResult c true result, disk := p.session.disk }

/-- The end of an operation on the cache. -/
def finishStep (p : Workplace) (a : Analyst) (c : Console) (step : CacheStep α)
    (lines : α → List String) : Finish :=
  let c := step.records.foldl Console.report c
  let disk := p.diskWith a step.folder
  match step.result with
  | .ok value => { console := (lines value).foldl Console.print c, disk }
  | .error cause => (p.withDisk disk).escape c (.unexpected cause)

def runCache (p : Workplace) (a : Analyst) (c : Console) (task : CacheTask) : Finish :=
  match a.cache, task with
  | none, _ => p.stop c "Caching is disabled in the configuration"
  | some cache, .stats => p.finishStep a c (cache.stats (p.cacheFolder a)) Console.statsLines
  | some cache, .clear => p.finishStep a c (cache.clear (p.cacheFolder a)) fun count =>
      [s!"Removed {count} cached analyses"]

/-- Does something with the settings at a path, if there are good ones. -/
def withAnalyst (p : Workplace) (c : Console) (path : Option PurePath)
    (act : Analyst → Finish) : Finish :=
  match p.settings path with
  | .error (.badConfig message) => p.stop c message
  | .error failure => p.escape c failure
  | .ok settings =>
    match Analyst.ofSettings settings with
    | .error cause => p.escape c (.unexpected cause)
    | .ok a => act a

/-- Carries out an invocation. The service needs no settings to be started. -/
def runInvocation (p : Workplace) (i : Invocation) : Finish :=
  let c : Console := { level := if i.options.verbose then .debug else .info }
  let act := p.withAnalyst c i.options.config
  match i.command with
  | .serve o => { console := c, disk := p.session.disk, served := some o }
  | .analyze o => act fun a => p.runAnalyze a c o
  | .folder o => act fun a => p.runLocal a c o
  | .cache task => act fun a => p.runCache a c task

/-- The names of the file that a log is written to. -/
def logNames (p : Workplace) (path : PurePath) : List String :=
  DiskNode.normalNames (p.session.absolute path)

/-- Carries out an invocation and writes its log. -/
def runLogged (p : Workplace) (time : String) (i : Invocation) : Finish :=
  match i.options.logFile with
  | none => p.runInvocation i
  | some path =>
    let names := p.logNames path
    match p.session.disk.appendFile names [] p.context.stamp with
    | .error fault => p.escape {} (.unexpected (fault.unexpected (DiskNode.pathText names)))
    | .ok disk =>
      let done := (p.withDisk disk).runInvocation i
      let lines := done.console.log.map fun r => r.logLine time ++ "\n"
      match done.disk.appendFile names (Utf8.encode (String.join lines)) p.context.stamp with
      | .ok disk => { done with disk }
      | .error _ => done

/-- Carries out a command line at a time, which is given as logs show it. -/
def run (p : Workplace) (time : String) (args : List String) : Finish :=
  match Invocation.ofArguments args with
  | .ok i => p.runLogged time i
  | .error .help => { disk := p.session.disk }
  | .error (.refused program message) =>
    { console := ({} : Console).warn (program ++ ": error: " ++ message)
      disk := p.session.disk, ending := .exits 2 }

end Workplace

end RepoAtlas
