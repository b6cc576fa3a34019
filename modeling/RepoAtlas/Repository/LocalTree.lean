import RepoAtlas.Disk.Locate
import RepoAtlas.Entity
import RepoAtlas.Repository.Ignore
import RepoAtlas.Text.Percent

/-!
A repository in a folder on disk: which files are listed, and reading one.
-/
namespace RepoAtlas

/-- Folders that are never listed. -/
def hiddenFolders : List String :=
  ["node_modules", ".next", "dist", "build", ".git", ".hg", ".svn", ".venv", "__pycache__", ".idea",
    ".cache", "coverage"]

/-- Files that are never listed. -/
def hiddenFiles : List String :=
  [".DS_Store", "Thumbs.db"]

/-- A folder on disk that is read as a repository. -/
structure LocalTree where
  /-- The names from the root of the disk to the folder. -/
  folder : List String
  coordinates : Coordinates
  rules : List IgnoreRule

/-- One listed path, relative to the repository. -/
structure Listed where
  path : String
  isFolder : Bool
deriving Repr, DecidableEq, Inhabited

/-- What is listed for one name in a folder: the name's own path, and what lies below it. -/
structure Branch where
  name : String
  self : Listed
  below : List Listed
deriving Repr, DecidableEq, Inhabited

namespace LocalTree

/-- A path relative to the repository. -/
def relative (names : List String) : String :=
  "/".intercalate names

/-- Whether rules and fixed names keep a name from being listed. -/
def isHidden (rules : List IgnoreRule) (names : List String) (name : String) (isFolder : Bool) :
    Bool :=
  (if isFolder then hiddenFolders.contains name else hiddenFiles.contains name) ||
    shouldIgnore rules (relative (names ++ [name])) isFolder

/-- Folders first, then files, then what lies in the folders; each in the order of names. -/
def inOrder (branches : List Branch) : List Listed :=
  let sorted := branches.mergeSort fun a b => a.name ≤ b.name
  ((sorted.filter fun b => b.self.isFolder) ++
    (sorted.filter fun b => !b.self.isFolder)).map Branch.self ++ sorted.flatMap Branch.below

mutual

/--
What is listed below a folder whose path in the repository is `names`. Links
count as what they lead to, but nothing below them is listed; `leadsToFolder`
says which of them lead to folders.
-/
def listNode (rules : List IgnoreRule) (leadsToFolder : List String → Bool) (names : List String) :
    DiskNode → List Listed
  | .folder entries => inOrder (listEntries rules leadsToFolder names entries)
  | _ => []

/-- The listed names among some entries. -/
def listEntries (rules : List IgnoreRule) (leadsToFolder : List String → Bool)
    (names : List String) : List (String × DiskNode) → List Branch
  | [] => []
  | (name, node) :: rest =>
    let path := names ++ [name]
    let isFolder := match node with
      | .folder _ => true
      | .file .. => false
      | .link _ => leadsToFolder path
    let others := listEntries rules leadsToFolder names rest
    if isHidden rules names name isFolder then others
    else
      { name, self := { path := relative path, isFolder }
        below := listNode rules leadsToFolder path node } :: others

end

/-- The paths that are listed. -/
def listing (t : LocalTree) (disk : DiskNode) : List Listed :=
  match disk.at? t.folder with
  | some node => listNode t.rules (fun names => disk.isFolderAt (t.folder ++ names)) [] node
  | none => []

/-- The records of the paths that are listed. -/
def files (t : LocalTree) (disk : DiskNode) : List FileRecord :=
  (t.listing disk).map fun l => {
    path := l.path
    type := if l.isFolder then .tree else .blob
    url := "file://" ++ Percent.quotePath
      (DiskNode.pathText (t.folder ++ (PurePath.ofString l.path).names)) }

/-- The names from the root of the disk that a path stands for, seen from a folder. -/
def namesFrom (folder : List String) (path : String) : List String :=
  let p := PurePath.ofString path
  if p.isAbsolute then p.names else folder ++ p.names

/--
The text of a file of the repository. A path that leads out of it is not
followed; the only failure besides an unreadable file is a path that no file
can have, or a link that leads back to itself.
-/
def readText (t : LocalTree) (disk : DiskNode) (path : String) : Except Failure String :=
  match disk.resolve (namesFrom t.folder path) with
  | .error cause => .error (.unexpected cause)
  | .ok names =>
    if t.folder.isPrefixOf names then
      match disk.read names with
      | .error fault =>
        .error (.unreadableFile path (fault.message (DiskNode.pathText names)))
      | .ok bytes =>
        match Utf8.decode bytes with
        | .error fault => .error (.unreadableFile path fault.message)
        | .ok text => .ok (String.ofList (Text.universalNewlines text))
    else .error (.unreadableFile path "path escapes the repository root")

/-- The rules in the list of ignored files of a folder, if there is one. -/
def ignoreRules (disk : DiskNode) (folder : List String) : Except Unexpected (List IgnoreRule) :=
  let names := folder ++ [".gitignore"]
  match disk.hasPath names with
  | .error fault => .error (fault.unexpected (DiskNode.pathText names))
  | .ok false => .ok []
  | .ok true =>
    match disk.read names with
    | .ok bytes => .ok (IgnoreRule.ofBytes bytes)
    | .error fault => .error (fault.unexpected (DiskNode.pathText names))

/--
The repository in the folder at a path. `shown` is the path as it was given,
and `current` the folder that relative paths start from.
-/
def openAt (disk : DiskNode) (current : List String) (shown : String)
    (excludes : List String) (coordinates : Option Coordinates) : Except Unexpected LocalTree := do
  let folder ← disk.resolve (namesFrom current shown)
  let found ← (disk.hasPath folder).mapError (FileFault.unexpected (DiskNode.pathText folder))
  if !found then .error ⟨"FileNotFoundError", "Repository path not found: " ++ shown⟩
  if !disk.isFolderAt folder then
    .error ⟨"NotADirectoryError", "Repository path is not a directory: " ++ shown⟩
  let name := folder.getLast?.getD ""
  let rules ← ignoreRules disk folder
  pure {
    folder
    coordinates := coordinates.getD
      { owner := "local", name := if name == "" then "repository" else name, branch := "local" }
    rules := rules ++ IgnoreRule.ofPatterns excludes }

end LocalTree

end RepoAtlas
