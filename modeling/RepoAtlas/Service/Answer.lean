import RepoAtlas.Json.Encoded
import RepoAtlas.Pipeline.Handler
import RepoAtlas.Pipeline.Workplace
import RepoAtlas.Service.Message
import RepoAtlas.Service.Payload

/-!
How the service answers: it analyzes repositories, tells of the cache and clears
it, and hands out single files. The settings are read anew for each request.
-/
namespace RepoAtlas

/-- The version that the service tells. -/
def serviceVersion : String := "0.1.0"

/-- What the service does. -/
inductive Endpoint where
  | health
  | analyze
  | cacheStats
  | cacheClear
  | fileContent
deriving Repr, DecidableEq, Inhabited

namespace Endpoint

/-- What the service does for a method at a path. -/
def table : List (String × String × Endpoint) :=
  [("GET", "/health", health), ("POST", "/analyze", analyze), ("GET", "/cache", cacheStats),
    ("DELETE", "/cache", cacheClear), ("POST", "/file-content", fileContent)]

def hasPath (path : String) : Bool :=
  table.any fun (_, p, _) => p == path

def find? (method path : String) : Option Endpoint :=
  (table.find? fun (m, p, _) => m == method && p == path).map fun (_, _, e) => e

end Endpoint

/-- An answer and the disk after it. -/
structure Served where
  response : ServiceResponse
  disk : DiskNode
deriving Inhabited

/-- The body of a request as a document, if there is one. -/
def ServiceRequest.document (r : ServiceRequest) : Except ServiceResponse (Option Json) :=
  if r.body.isEmpty then .ok none
  else
    match Json.textOfBytes? r.body with
    | none => .error .unreadableBody
    | some text =>
      match Json.readLoose text with
      | .ok v => .ok (some v)
      | .error fault =>
        .error (match fault.position? text with
          | some position => .invalid [["body", s!"{position}"]]
          | none => .unreadableBody)

/-- The payload in a document, which has to be an object. -/
def payloadOf (read : Json → Except (List String) α) (document : Option Json) :
    Except ServiceResponse α :=
  match document with
  | some (.obj fields) =>
    (read (.obj fields)).mapError fun names => .invalid (names.map fun name => ["body", name])
  | _ => .error (.invalid [["body"]])

namespace Workplace

/-- An answer that changes nothing on the disk. -/
def reply (p : Workplace) (response : ServiceResponse) : Served :=
  ⟨response, p.session.disk⟩

/-- The answer to a failure. -/
def failureResponse : Failure → ServiceResponse
  | .unreadableFile _ _ => .refusal 404 "error" "File not found"
  | .invalidRepository shown =>
    .refusal 400 "error" (Failure.invalidRepository shown).message
  | _ => .internalError

/-- Analyzes a repository and answers with the events. -/
def serveAnalyze (p : Workplace) (a : Analyst) (payload : AnalyzePayload) : Served :=
  match Coordinates.ofLocation payload.location payload.branch with
  | .error failure => p.reply (failureResponse failure)
  | .ok _ =>
    let request : AnalysisRequest :=
      { location := payload.location, branch := payload.branch, allFiles := payload.allFiles
        useCache := payload.useCache, mode := payload.mode }
    let taken := (a.plan.analyze request).drain (p.hostedHandler a) (p.hostedWorld a)
    ⟨⟨200, .stream taken.events⟩, p.diskWith a taken.state.folder⟩

/-- The document about what a cache holds. -/
def statsDocument (s : CacheStats) : Json :=
  let size := Binary64.ofRatio false s.totalBytes.toNat (1024 * 1024)
  .obj [("count", .int s.count), ("totalSize", .int s.totalBytes),
    ("totalSizeMB", .real (size.roundTo 2)), ("oldest", Json.ofOption .str s.oldest),
    ("newest", Json.ofOption .str s.newest)]

def clearDocument (count : Nat) : Json :=
  .obj [("removed", .int count), ("message", .str "Cache cleared successfully")]

/-- The answer to an operation on the cache. -/
def serveStep (p : Workplace) (a : Analyst) (step : CacheStep α) (document : α → Json) : Served :=
  let response := match step.result with
    | .ok value => .document (document value)
    | .error _ => .internalError
  ⟨response, p.diskWith a step.folder⟩

def serveStats (p : Workplace) (a : Analyst) : Served :=
  match a.cache with
  | none => p.reply (.document (statsDocument {}))
  | some cache => p.serveStep a (cache.stats (p.cacheFolder a)) statsDocument

def serveClear (p : Workplace) (a : Analyst) : Served :=
  match a.cache with
  | none => p.reply (.document (clearDocument 0))
  | some cache => p.serveStep a (cache.clear (p.cacheFolder a)) clearDocument

/-- The text of one file of a hosted repository. -/
def fetchFile (p : Workplace) (a : Analyst) (payload : FilePayload) : Except Failure String := do
  let repository ← Coordinates.ofLocation payload.location payload.branch
  let access := p.access a
  let chosen := access.choose (.hosted repository .remote) { repository }
  let _ ← chosen.result
  (access.read payload.path chosen.state).result

/-- What follows the last slash of a path. -/
def fileName (path : String) : String :=
  ((Text.splitOnChar '/' path).getLast?).getD path

def fileDocument (path content : String) : Json :=
  .obj [("content", .str content), ("filename", .str (fileName path)),
    ("size", .int (Utf8.encode content).length)]

def serveFile (p : Workplace) (a : Analyst) (payload : FilePayload) : Served :=
  p.reply (match p.fetchFile a payload with
    | .ok content => .document (fileDocument payload.path content)
    | .error failure => failureResponse failure)

/-- Answers with the settings that are found; bad ones are not foreseen. -/
def withService (p : Workplace) (act : Analyst → Served) : Served :=
  match p.settings none with
  | .error _ => p.reply .internalError
  | .ok settings =>
    match Analyst.ofSettings settings with
    | .error _ => p.reply .internalError
    | .ok a => act a

/-- Answers to a payload. It is looked at only if the settings are good. -/
def withPayload (p : Workplace) (r : ServiceRequest) (read : Json → Except (List String) α)
    (act : Analyst → α → Served) : Served :=
  match r.document with
  | .error response => p.reply response
  | .ok document => p.withService fun a =>
    match payloadOf read document with
    | .error response => p.reply response
    | .ok payload => act a payload

def healthDocument : Json :=
  .obj [("status", .str "ok"), ("version", .str serviceVersion)]

def serveEndpoint (p : Workplace) (r : ServiceRequest) : Endpoint → Served
  | .health => p.reply (.document healthDocument)
  | .analyze => p.withPayload r AnalyzePayload.ofObject p.serveAnalyze
  | .cacheStats => p.withService p.serveStats
  | .cacheClear => p.withService p.serveClear
  | .fileContent => p.withPayload r FilePayload.ofObject p.serveFile

/-- The same path with a slash at its end added, or with all slashes there removed. -/
def otherSlash (path : String) : String :=
  if Text.isEndingOf "/" path then Text.trimEnd (· == '/') path else path ++ "/"

/-- The answer to a request at a path that is none of the service's. -/
def misplaced (path : String) : ServiceResponse :=
  if path != "/" && Endpoint.hasPath (otherSlash path) then ⟨307, .moved (otherSlash path)⟩
  else .notFound

/-- Answers to a request. -/
def serve (p : Workplace) (r : ServiceRequest) : Served :=
  match Endpoint.find? r.method r.path with
  | some endpoint => p.serveEndpoint r endpoint
  | none => p.reply (if Endpoint.hasPath r.path then .wrongMethod else misplaced r.path)

end Workplace

end RepoAtlas
