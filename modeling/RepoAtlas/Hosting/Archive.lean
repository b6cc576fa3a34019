import RepoAtlas.Disk.Write
import RepoAtlas.Failure
import RepoAtlas.Log

/-!
Unpacking an archive of a repository into a folder. The folder on top, which all
members share, is dropped, and nothing is written outside the target.
-/
namespace RepoAtlas

/-- What a member of an archive stands for. -/
inductive MemberKind where
  | file (bytes : List UInt8)
  | folder
  /-- A link or a device, which is never unpacked. -/
  | other
deriving Repr, DecidableEq, Inhabited

structure Member where
  name : String
  kind : MemberKind
deriving Repr, DecidableEq, Inhabited

/-- What unpacking leaves behind, also when it stops midway. -/
structure Unpacked where
  disk : DiskNode
  failure : Option Failure := none
  records : List LogRecord := []

namespace Member

/-- The names of a member below the folder on top. -/
def names (m : Member) : List String :=
  let path := PurePath.ofString m.name
  if path.isAbsolute then path.names else path.names.drop 1

/-- Puts a member at some names. Says what is on the disk then, and what went wrong. -/
def put (m : Member) (target : List String) (disk : DiskNode) : DiskNode × Option FileFault :=
  match m.kind with
  | .other => (disk, none)
  | .folder => disk.makeFolders target
  | .file bytes =>
    match disk.makeFolders target.dropLast with
    | (made, some fault) => (made, some fault)
    | (made, none) =>
      match made.putFile bytes .zero target with
      | .ok written => (written, none)
      | .error fault => (made, some fault)

end Member

namespace Archive

/-- The failure of an archive that cannot be read or unpacked. -/
def failed : Failure :=
  .repositoryUnavailable "Failed to extract repository archive"

/-- The report on a member that belongs outside the target. -/
def skipped (m : Member) : LogRecord :=
  .warning "sources.github" ("Skipping archive member outside checkout: " ++ m.name)

/--
Unpacks members in order, until one of them fails. A member belongs where its
path leads on the disk as the members before it have left it.
-/
def unpack (root : List String) : List Member → DiskNode → Unpacked
  | [], disk => { disk }
  | m :: rest, disk =>
    if m.names.isEmpty then unpack root rest disk
    else
      match disk.resolve (root ++ m.names) with
      | .error cause => { disk, failure := some (.unexpected cause) }
      | .ok target =>
        if root.isPrefixOf target then
          match m.put target disk with
          | (disk, none) => unpack root rest disk
          | (disk, some _) => { disk, failure := some failed }
        else
          let done := unpack root rest disk
          { done with records := skipped m :: done.records }

end Archive

end RepoAtlas
