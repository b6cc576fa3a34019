import RepoAtlas.Disk.Locate

/-!
The folder that holds the records of a cache: one file for each key.
-/
namespace RepoAtlas

/-- What stands at the path of a cache's folder. -/
inductive CacheFolder where
  | absent
  | present (entries : Entries)
  /-- Something else than a folder stands there. -/
  | occupied
  /-- The path cannot be followed to its end. -/
  | unreachable (fault : FileFault)
deriving Inhabited

namespace CacheFolder

/-- What stands at a path of a disk. -/
def ofDisk (root : DiskNode) (names : List String) : CacheFolder :=
  match root.locate names with
  | .ok ⟨_, some (.folder entries)⟩ => present entries
  | .ok ⟨_, some _⟩ => occupied
  | .ok ⟨_, none⟩ => absent
  | .error .missing => absent
  | .error fault => unreachable fault

/-- Puts the folder back to where it comes from. -/
def toDisk (folder : CacheFolder) (names : List String) (root : DiskNode) : DiskNode :=
  match folder with
  | present entries =>
    match root.locate names with
    | .ok spot => root.place (some (.folder entries)) spot.names
    | .error _ => root.place (some (.folder entries)) (DiskNode.normalNames names)
  | _ => root

/-- The bytes of a file in the folder. -/
def read (folder : CacheFolder) (name : String) : Except FileFault (List UInt8) :=
  match folder with
  | absent => .error .missing
  | present entries => (DiskNode.folder entries).read [name]
  | occupied => .error .notFolder
  | unreachable fault => .error fault

/-- The entries of the folder; one that is not there has none. -/
def list (folder : CacheFolder) : Except FileFault Entries :=
  match folder with
  | present entries => .ok entries
  | occupied => .error .notFolder
  | unreachable .longName => .error .longName
  | _ => .ok []

/-- The entries of the folder after it has been made sure that there is one. -/
def make (folder : CacheFolder) : Except FileFault Entries :=
  match folder with
  | absent => .ok []
  | present entries => .ok entries
  | occupied => .error .exists
  | unreachable fault => .error fault

end CacheFolder

/-- The name of the file of a record. -/
def recordName (key : String) : String :=
  key ++ ".json"

/-- Whether a name is one of a record's file. -/
def isRecordName (name : String) : Bool :=
  (PurePath.splitSuffix name).2 == ".json"

/-- The names of the records' files, in order. -/
def recordNames (entries : Entries) : List String :=
  ((entries.map Prod.fst).filter isRecordName).mergeSort fun a b => a ≤ b

/-- What came of removing a file. -/
inductive Removal where
  | removed (entries : Entries)
  | absent
  | failed (fault : FileFault)

/-- Removes a file or a link. Folders stay. -/
def removeFile (name : String) (entries : Entries) : Removal :=
  match Table.get? name entries with
  | none => .absent
  | some (.folder _) => .failed .isFolder
  | some _ => .removed (DiskNode.setEntry name none entries)

end RepoAtlas
