import RepoAtlas.Config.Settings
import RepoAtlas.Entity
import RepoAtlas.Http.Exchange
import RepoAtlas.Log
import RepoAtlas.Text.Base64

/-!
Asking the hosting service for the files of a repository. Files come from a
mirror without credentials, or from the service itself as encoded documents.
-/
namespace RepoAtlas

/-- What was sent and what was reported while the service was asked. -/
structure Traffic where
  requests : List Request := []
  records : List LogRecord := []
deriving Inhabited

/-- Something done online, which may fail. -/
abbrev Online := ExceptT Failure (StateM Traffic)

/-- Coordinates as they are handed over, the branch of which may be a loose text. -/
structure LooseCoordinates where
  owner : String
  name : String
  branch : LooseText
deriving Repr, DecidableEq, Inhabited

/-- The coordinates as they are handed over. -/
def Coordinates.loose (r : Coordinates) : LooseCoordinates where
  owner := r.owner
  name := r.name
  branch := .ofString r.branch

/-- The coordinates, if the branch can be written in UTF-8. -/
def LooseCoordinates.strict (r : LooseCoordinates) : Except Unexpected Coordinates :=
  r.branch.strict.map fun branch => { owner := r.owner, name := r.name, branch }

/-- A client of the hosting service. -/
structure HostClient where
  settings : HostSettings
  network : Network
  isClosed : Bool := false

namespace HostClient

/-- The logger of everything that asks the service. -/
def logger : String := "sources.github"

def tell (record : LogRecord) : Online Unit :=
  modify fun t => { t with records := t.records ++ [record] }

/-- The failure that there is no client for these settings. -/
def refusal? (settings : HostSettings) : Option Unexpected :=
  Ascii.fault? settings.userAgent

/-- The credentials that are shown to the service. -/
def authorization? (settings : HostSettings) : Option String :=
  (settings.token.filter (· != "")).map ("token " ++ ·)

def apiType : String := "application/vnd.github.v3+json"

/-- A request for an address; the service itself is shown the credentials. -/
def request (c : HostClient) (api : Bool) (address : String)
    (params : Option (List (String × String))) : Except Unexpected Request :=
  match Address.ofString address with
  | .error fault => .error ⟨"InvalidURL", fault.message⟩
  | .ok found =>
    let placed := if found.isAbsolute then found else found.withoutHost
    let authorization := if api then authorization? c.settings else none
    match authorization.bind Ascii.fault? with
    | some failure => .error failure
    | none => .ok {
        address := (params.map placed.withQuery).getD placed
        accept := if api then apiType else "*/*"
        authorization
        userAgent := c.settings.userAgent }

def closedFailure : Unexpected :=
  ⟨"RuntimeError", "Cannot send a request, as the client has been closed."⟩

/-- Asks for an address. A failure on the way is told apart from others. -/
def get (c : HostClient) (api : Bool) (address : String)
    (params : Option (List (String × String))) :
    Online (Except String Response) := do
  match c.request api address params with
  | .error failure => throw (.unexpected failure)
  | .ok r =>
    if c.isClosed then throw (.unexpected closedFailure)
    let (result, sent) := r.send c.network Request.maxRedirections
    modify fun t => { t with requests := t.requests ++ sent }
    match result with
    | .ok response => return .ok response
    | .error fault => return .error fault.message

/-- The address of a repository in the interface of the service. -/
def repositoryAddress (c : HostClient) (r : Coordinates) : String :=
  c.settings.apiBase ++ "/repos/" ++ r.owner ++ "/" ++ r.name

def treeAddress (c : HostClient) (r : Coordinates) : String :=
  c.repositoryAddress r ++ "/git/trees/" ++ Percent.quote [] r.branch

def rawAddress (c : HostClient) (r : Coordinates) (path : String) : String :=
  c.settings.rawBase ++ "/" ++ r.owner ++ "/" ++ r.name ++ "/" ++ Percent.quotePath r.branch ++
    "/" ++ Percent.quotePath path

def contentsAddress (c : HostClient) (r : Coordinates) (path : String) : String :=
  c.repositoryAddress r ++ "/contents/" ++ Percent.quotePath path

def archiveAddress (c : HostClient) (r : Coordinates) : String :=
  c.repositoryAddress r ++ "/tarball/" ++ Percent.quotePath r.branch

def notFound : Failure :=
  .repositoryNotFound "Repository not found or branch does not exist"

/-- The entries of a listing. Items of another shape are left out. -/
def entriesOf : List Json → Except Failure (List ListedEntry)
  | [] => .ok []
  | item :: rest =>
    match ListedEntry.ofJson item with
    | .error (.unhashable type) =>
      .error (.unexpected ⟨"TypeError", "unhashable type: '" ++ type ++ "'"⟩)
    | .error .dropped => entriesOf rest
    | .ok entry => (entriesOf rest).map (entry :: ·)

/-- The items of a listing and whether it was cut off. -/
def listingOf (document : Json) : Except Failure (List Json × Bool) :=
  match document.get? "tree" with
  | some (.arr items) => .ok (items, ((document.get? "truncated").map Json.truthy).getD false)
  | _ => .error (.repositoryUnavailable "GitHub API response did not include a tree")

/-- The JSON document in an answer, or else a failure. -/
def documentOf (response : Response) (notJson : Failure) : Except Failure Json :=
  match response.json with
  | .ok document => .ok document
  | .error .notJson => .error notJson
  | .error (.tooDeep cause) => .error (.unexpected cause)

/-- All files and folders of a branch, as they are listed. -/
def fetchListing (c : HostClient) (r : Coordinates) : Online (List ListedEntry) := do
  tell (.info logger ("Fetching repository tree for " ++ r.slug ++ "@" ++ r.branch))
  match ← c.get true (c.treeAddress r) (some [("recursive", "1")]) with
  | .error message => throw (.repositoryUnavailable ("GitHub API request failed: " ++ message))
  | .ok response =>
    if response.status == 404 then throw notFound
    if response.isError then
      throw (.repositoryUnavailable s!"GitHub API error: {response.status}")
    let document ← documentOf response
      (.repositoryUnavailable "GitHub API returned invalid JSON")
    let (items, isCut) ← listingOf document
    if isCut then
      tell (.warning logger ("Tree listing for " ++ r.slug ++ " was truncated by GitHub"))
    entriesOf items

/-- All files and folders of a branch, with marks where their texts cannot be written. -/
def fetchTree (c : HostClient) (r : Coordinates) : Online (List FileRecord) := do
  let entries ← c.fetchListing r
  return entries.map ListedEntry.shown

/-- As `fetchListing`, for a branch that has to be written in an address first. -/
def fetchLooseListing (c : HostClient) (r : LooseCoordinates) : Online (List ListedEntry) :=
  match r.strict with
  | .error cause => throw (.unexpected cause)
  | .ok r => c.fetchListing r

/-- The text of a file, from the mirror. -/
def fetchRaw (c : HostClient) (r : Coordinates) (path : String) : Online String := do
  match ← c.get false (c.rawAddress r path) none with
  | .error message => throw (.unreadableFile path message)
  | .ok response =>
    if response.isError then
      throw (.unreadableFile path s!"raw mirror returned {response.status}")
    return response.text

/-- The text that a document of the service encodes. -/
def contentOf (path : String) (document : Json) : Except Failure String :=
  match (document.get? "content").bind Json.string? with
  | some encoded =>
    if encoded == "" then .error (.unreadableFile path "no content found in file")
    else
      match Base64.decode encoded with
      | .error fault => .error (.unreadableFile path ("undecodable content: " ++ fault.message))
      | .ok bytes =>
        match Utf8.decode bytes with
        | .error fault => .error (.unreadableFile path ("undecodable content: " ++ fault.message))
        | .ok chars => .ok (String.ofList chars)
  | none => .error (.unreadableFile path "no content found in file")

/-- The text of a file, from the service itself. -/
def fetchContents (c : HostClient) (r : Coordinates) (path : String) : Online String := do
  match ← c.get true (c.contentsAddress r path) (some [("ref", r.branch)]) with
  | .error message => throw (.unreadableFile path message)
  | .ok response =>
    if response.isError then
      throw (.unreadableFile path s!"contents API returned {response.status}")
    let document ← documentOf response
      (.unreadableFile path "contents API returned invalid JSON")
    contentOf path document

/-- The text of a file: from the mirror, or else from the service itself. -/
def readText (c : HostClient) (r : Coordinates) (path : String) : Online String :=
  tryCatch (c.fetchRaw r path) fun failure => do
    match failure with
    | .unreadableFile _ reason =>
      tell (.debug logger
        ("Raw mirror failed for " ++ path ++ " (" ++ reason ++ "); falling back to API"))
      c.fetchContents r path
    | other => throw other

/-- As `readText`, for a branch and a path that have to be written in an address first. -/
def readLooseText (c : HostClient) (r : LooseCoordinates) (path : LooseText) : Online String :=
  match r.strict, path.strict with
  | .error cause, _ => throw (.unexpected cause)
  | .ok _, .error cause => throw (.unexpected cause)
  | .ok r, .ok path => c.readText r path

/-- The bytes of an archive of all files of a branch. -/
def downloadArchive (c : HostClient) (r : Coordinates) : Online (List UInt8) := do
  tell (.info logger ("Downloading archive for " ++ r.slug ++ "@" ++ r.branch))
  match ← c.get true (c.archiveAddress r) none with
  | .error message => throw (.repositoryUnavailable ("Failed to download repository: " ++ message))
  | .ok response =>
    if response.status == 404 then throw notFound
    if response.isError then
      throw (.repositoryUnavailable s!"Failed to download repository: {response.status}")
    return response.body

end HostClient

end RepoAtlas
