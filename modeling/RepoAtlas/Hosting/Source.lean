import RepoAtlas.Hosting.Archive
import RepoAtlas.Hosting.Client
import RepoAtlas.Pipeline.World

/-!
Hosted repositories as sources of files: asked for file by file, or unpacked
from an archive into a scratch folder, which is removed when the source is
closed or cannot be opened.
-/
namespace RepoAtlas

/-- What hosted sources need: a network, a reader of archives and a place for them. -/
structure HostAccess where
  settings : HostSettings := {}
  network : Network
  /-- The members of an archive, if the bytes are one. -/
  members : List UInt8 → Option (List Member)
  /-- The names of the scratch folder. -/
  scratch : List String
  /-- The disk on which the scratch folder is made. -/
  disk : DiskNode := .folder []

/-- An archive that has been unpacked. -/
structure Checkout where
  disk : DiskNode
  tree : LocalTree

/-- A hosted source, and the requests that were sent so far. -/
structure HostedState where
  repository : Coordinates
  mode : Mode := .remote
  isClosed : Bool := false
  checkout : Option Checkout := none
  requests : List Request := []
deriving Inhabited

namespace HostAccess

/-- The names of the folder that an archive is unpacked into. -/
def checkoutNames (a : HostAccess) : List String :=
  a.scratch ++ ["checkout"]

/-- The disk with an empty folder for the archive. -/
def freshDisk (a : HostAccess) : DiskNode :=
  a.disk.place (some (.folder [])) a.checkoutNames

def client (a : HostAccess) (s : HostedState) : HostClient :=
  { settings := a.settings, network := a.network, isClosed := s.isClosed }

/-- Does something online. -/
def online (a : HostAccess) (s : HostedState) (ask : HostClient → Online α) :
    Reply HostedState α :=
  let (result, traffic) := ((ask (a.client s)).run).run {}
  ⟨result, { s with requests := s.requests ++ traffic.requests }, traffic.records⟩

/-- Unpacks an archive into the scratch folder. -/
def checkOut (a : HostAccess) (repository : Coordinates) (archive : List UInt8) :
    Logged (Except Failure Checkout) :=
  match a.members archive with
  | none => ⟨.error Archive.failed, []⟩
  | some members =>
    let folder := a.checkoutNames
    let done := Archive.unpack folder members a.freshDisk
    match done.failure with
    | some failure => ⟨.error failure, done.records⟩
    | none =>
      match LocalTree.openAt done.disk [] (DiskNode.pathText folder) [] (some repository) with
      | .ok tree => ⟨.ok ⟨done.disk, tree⟩, done.records⟩
      | .error cause => ⟨.error (.unexpected cause), done.records⟩

/-- The report that the scratch folder was removed. -/
def removed (a : HostAccess) : LogRecord :=
  .debug HostClient.logger ("Removed scratch directory " ++ DiskNode.pathText a.scratch)

/-- A source after it has been closed. -/
def closed (s : HostedState) : HostedState :=
  { s with isClosed := true, checkout := none }

/-- Downloads and unpacks the archive, unless that has been done. -/
def openArchive (a : HostAccess) (s : HostedState) : Reply HostedState Unit :=
  if s.checkout.isSome then ⟨.ok (), s, []⟩
  else
    let download := a.online s fun c => c.downloadArchive s.repository
    let found : Logged (Except Failure Checkout) :=
      match download.result with
      | .ok archive => a.checkOut s.repository archive
      | .error failure => ⟨.error failure, []⟩
    let records := download.records ++ found.records
    match found.value with
    | .ok checkout => ⟨.ok (), { download.state with checkout := some checkout }, records⟩
    | .error failure => ⟨.error failure, closed download.state, records ++ [a.removed]⟩

def openSource (a : HostAccess) (s : HostedState) : Reply HostedState Unit :=
  match s.mode with
  | .remote => ⟨.ok (), s, []⟩
  | .archive => a.openArchive s

def closeSource (a : HostAccess) (s : HostedState) : Reply HostedState Unit :=
  ⟨.ok (), closed s, if s.checkout.isSome then [a.removed] else []⟩

def notOpen : Failure :=
  .unexpected ⟨"RuntimeError", "ArchiveSource must be opened before use"⟩

/-- The record of an unpacked file, with its address at the service. -/
def hostedRecord (r : Coordinates) (file : FileRecord) : FileRecord :=
  { file with
    url := "https://github.com/" ++ r.owner ++ "/" ++ r.name ++ "/" ++ file.type.label ++ "/" ++
      r.branch ++ "/" ++ file.path }

def list (a : HostAccess) (s : HostedState) : Reply HostedState (List FileRecord) :=
  match s.mode, s.checkout with
  | .remote, _ => a.online s fun c => c.fetchTree s.repository
  | .archive, some c => ⟨.ok ((c.tree.files c.disk).map (hostedRecord s.repository)), s, []⟩
  | .archive, none => ⟨.error notOpen, s, []⟩

def read (a : HostAccess) (path : String) (s : HostedState) : Reply HostedState String :=
  match s.mode, s.checkout with
  | .remote, _ => a.online s fun c => c.readText s.repository path
  | .archive, some c => ⟨c.tree.readText c.disk path, s, []⟩
  | .archive, none => ⟨.error notOpen, s, []⟩

/-- Chooses a repository; there is no source for some settings. -/
def choose (a : HostAccess) (origin : Origin) (s : HostedState) : Reply HostedState SourceInfo :=
  match origin, HostClient.refusal? a.settings with
  | .folder _, _ => ⟨.error (.generic "not hosted"), s, []⟩
  | .hosted .., some cause => ⟨.error (.unexpected cause), s, []⟩
  | .hosted repository mode, none =>
    ⟨.ok { repository }, { repository, mode, requests := s.requests }, []⟩

/-- The repositories that a service hosts. -/
def source (a : HostAccess) : Source HostedState where
  choose := a.choose
  openIt := a.openSource
  closeIt := a.closeSource
  list := a.list
  read := a.read

end HostAccess

end RepoAtlas
