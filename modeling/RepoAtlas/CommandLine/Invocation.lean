import RepoAtlas.CommandLine.Reading
import RepoAtlas.Number.Reading
import RepoAtlas.Text.PurePath

/-!
The command line of the program: its commands and their options.
-/
namespace RepoAtlas

/-- The analysis of a hosted repository. -/
structure AnalyzeOptions where
  location : String := ""
  branch : String := "main"
  allFiles : Bool := false
  archive : Bool := false
  useCache : Bool := true
  json : Bool := false
deriving Repr, DecidableEq, Inhabited

/-- The analysis of a folder. -/
structure LocalOptions where
  path : String := "."
  output : Option PurePath := none
deriving Repr, DecidableEq, Inhabited

/-- What to do with the cache. -/
inductive CacheTask where
  | stats
  | clear
deriving Repr, DecidableEq, Inhabited

namespace CacheTask

def name : CacheTask → String
  | stats => "stats"
  | clear => "clear"

def all : List CacheTask := [stats, clear]

def ofName? (s : String) : Option CacheTask :=
  all.find? fun t => t.name == s

end CacheTask

/-- Where the service listens. -/
structure ServeOptions where
  host : String := "0.0.0.0"
  port : Int := 8000
deriving Repr, DecidableEq, Inhabited

inductive Command where
  | analyze (options : AnalyzeOptions)
  | folder (options : LocalOptions)
  | cache (task : CacheTask)
  | serve (options : ServeOptions)
deriving Repr, DecidableEq, Inhabited

/-- What the options before the command say. -/
structure GlobalOptions where
  verbose : Bool := false
  config : Option PurePath := none
  logFile : Option PurePath := none
deriving Repr, DecidableEq, Inhabited

structure Invocation where
  options : GlobalOptions
  command : Command
deriving Repr, DecidableEq, Inhabited

/-- The options of a command as they are read, with what they say for the whole program. -/
structure Draft (κ : Type) where
  verbose : Bool
  own : κ

namespace Invocation

def programName : String := "compgraph"

def helpOption : OptionRule σ :=
  { spellings := ["-h", "--help"], action := .help }

def verboseSpellings : List String := ["-v", "--verbose"]

/-- An option whose value is a path. -/
def pathOption (spellings : List String) (set : PurePath → σ → σ) : OptionRule σ :=
  { spellings, action := .value fun text s => .ok (set (PurePath.ofString text) s) }

/-- What stands before the command. -/
def globalGrammar : Grammar GlobalOptions where
  program := programName
  options := [
    helpOption,
    { spellings := verboseSpellings, action := .flag fun s => { s with verbose := true } },
    pathOption ["--config"] fun p s => { s with config := some p },
    pathOption ["--log-file"] fun p s => { s with logFile := some p }]
  place := .command "command" ["analyze", "local", "cache", "serve"]

/-- What stands after the name of a command. -/
def commandGrammar (name : String) (options : List (OptionRule (Draft κ)))
    (place : PlaceRule (Draft κ)) : Grammar (Draft κ) where
  program := programName ++ " " ++ name
  options :=
    helpOption ::
    { spellings := verboseSpellings, action := .flag fun s => { s with verbose := true } } ::
    options
  place

/-- An option without a value that changes what belongs to the command. -/
def ownFlag (spelling : String) (set : κ → κ) : OptionRule (Draft κ) :=
  { spellings := [spelling], action := .flag fun s => { s with own := set s.own } }

/-- An option whose value is a text of the command. -/
def ownText (spelling : String) (set : String → κ → κ) : OptionRule (Draft κ) :=
  { spellings := [spelling], action := .value fun text s => .ok { s with own := set text s.own } }

def analyzeGrammar : Grammar (Draft AnalyzeOptions) :=
  commandGrammar "analyze" [
    ownText "--branch" fun text o => { o with branch := text },
    ownFlag "--all" fun o => { o with allFiles := true },
    ownFlag "--archive" fun o => { o with archive := true },
    ownFlag "--no-cache" fun o => { o with useCache := false },
    ownFlag "--json" fun o => { o with json := true }]
    (.required "repo_url" fun text s => .ok { s with own := { s.own with location := text } })

def localGrammar : Grammar (Draft LocalOptions) :=
  commandGrammar "local" [
    pathOption ["--output", "-o"] fun p s => { s with own := { s.own with output := some p } }]
    (.optional fun text s => { s with own := { s.own with path := text } })

def cacheGrammar : Grammar (Draft CacheTask) :=
  commandGrammar "cache" []
    (.required "action" fun text s =>
      match CacheTask.ofName? text with
      | some task => .ok { s with own := task }
      | none => .error (Grammar.chooseFrom (CacheTask.all.map CacheTask.name) text))

/-- Reads the number of a port. -/
def portOf (text : String) : Except String Int :=
  match NumberText.readWhole 10 text with
  | .ok port => .ok port
  | .error _ => .error ("invalid int value: " ++ Text.quoted text)

def serveGrammar : Grammar (Draft ServeOptions) :=
  commandGrammar "serve" [
    ownText "--host" fun text o => { o with host := text },
    { spellings := ["--port"]
      action := .value fun text s =>
        (portOf text).map fun port => { s with own := { s.own with port } } }]
    .absent

/-- Reads the words after the name of a command. Gives those that are not understood, too. -/
def readCommand (options : GlobalOptions) (g : Grammar (Draft κ)) (start : κ)
    (make : κ → Command) (args : List String) : Except UsageStop (Invocation × List String) := do
  let r ← g.read { verbose := options.verbose, own := start } args
  pure ({ options := { options with verbose := r.state.verbose }, command := make r.state.own },
    r.unknown)

/-- Reads the words of a command by its name. -/
def readNamed (options : GlobalOptions) (name : String) (args : List String) :
    Except UsageStop (Invocation × List String) :=
  match name with
  | "analyze" => readCommand options analyzeGrammar {} .analyze args
  | "local" => readCommand options localGrammar {} .folder args
  | "cache" => readCommand options cacheGrammar .stats .cache args
  | _ => readCommand options serveGrammar {} .serve args

/-- What a command line asks for. -/
def ofArguments (args : List String) : Except UsageStop Invocation := do
  let r ← globalGrammar.read {} args
  let (name, rest) := r.command.getD ("", [])
  let (invocation, unknown) ← readNamed r.state name rest
  match globalGrammar.unrecognized? (r.unknown ++ unknown) with
  | some stop => throw stop
  | none => pure invocation

end Invocation

end RepoAtlas
