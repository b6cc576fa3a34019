import RepoAtlas.Number.Binary64
import RepoAtlas.Table
import RepoAtlas.Text.PurePath

/-!
Files and folders on a disk. A folder maps names to what they stand for.
-/
namespace RepoAtlas

inductive DiskNode where
  | file (bytes : List UInt8) (modified : Binary64)
  | folder (entries : List (String × DiskNode))
  /-- A symbolic link with the path it leads to. -/
  | link (target : String)
deriving Inhabited

/-- The names in a folder and what they stand for. -/
abbrev Entries := Table DiskNode

namespace DiskNode

def entries : DiskNode → Entries
  | folder es => es
  | _ => []

/-- What a name in a folder stands for. -/
def child? (node : DiskNode) (name : String) : Option DiskNode :=
  Table.get? name node.entries

/-- What lies at the end of some names, links left alone. -/
def at? (node : DiskNode) : List String → Option DiskNode
  | [] => some node
  | name :: rest => (node.child? name).bind fun next => next.at? rest

/-- Puts a name into a folder, or takes it away. -/
def setEntry (name : String) (new : Option DiskNode) (entries : Entries) : Entries :=
  match new with
  | some node => Table.set name node entries
  | none => entries.filter fun e => e.1 != name

/-- Puts something at the end of some names, or takes it away; missing folders are made. -/
def place (new : Option DiskNode) : List String → DiskNode → DiskNode
  | [], old => new.getD old
  | [name], folder es => folder (setEntry name new es)
  | name :: rest, folder es =>
    folder (Table.set name (place new rest ((Table.get? name es).getD (folder []))) es)
  | _, other => other

end DiskNode

end RepoAtlas
