import RepoAtlas.Disk.Locate

/-!
Making folders and writing files, at names that lead through folders only, or at
a path whose links are followed.
-/
namespace RepoAtlas

namespace DiskNode

/--
Makes the folders that some names lead through, as far as they are not there.
Those that come before a fault stay.
-/
def makeFolders : List String → DiskNode → DiskNode × Option FileFault
  | [], folder entries => (folder entries, none)
  | [], other => (other, some .exists)
  | name :: rest, folder entries =>
    match nameFault? name with
    | some fault => (folder entries, some fault)
    | none =>
      let (made, fault) := makeFolders rest ((Table.get? name entries).getD (folder []))
      (folder (Table.set name made entries), fault)
  | _ :: _, other => (other, some .notFolder)

/-- Writes a file into a folder that is there. -/
def putFile (bytes : List UInt8) (modified : Binary64) :
    List String → DiskNode → Except FileFault DiskNode
  | [], folder _ => .error .isFolder
  | [name], folder entries =>
    match nameFault? name, Table.get? name entries with
    | some fault, _ => .error fault
    | none, some (folder _) => .error .isFolder
    | none, _ => .ok (folder (Table.set name (file bytes modified) entries))
  | name :: rest, folder entries =>
    match Table.get? name entries with
    | none => .error .missing
    | some below => (putFile bytes modified rest below).map fun made =>
        folder (Table.set name made entries)
  | _, _ => .error .notFolder

/-- Writes a file at a path from the root on. -/
def writeFile (root : DiskNode) (names : List String) (bytes : List UInt8)
    (modified : Binary64) : Except FileFault DiskNode := do
  let spot ← root.locate names
  root.putFile bytes modified spot.names

/-- Writes at the end of the file at a path; a file that is not there is made. -/
def appendFile (root : DiskNode) (names : List String) (bytes : List UInt8)
    (modified : Binary64) : Except FileFault DiskNode :=
  root.writeFile names ((root.read names).toOption.getD [] ++ bytes) modified

end DiskNode

end RepoAtlas
