import RepoAtlas.Disk.Node
import RepoAtlas.Disk.Fault
import RepoAtlas.Text.Utf8

/-!
Finding what a path leads to. Links are followed, also one at the end; a path
that follows too many is a fault.
-/
namespace RepoAtlas

/-- Most links that one path may follow. -/
def maxLinks : Nat := 40

/-- Most links that may lead into one another where a path without links is sought. -/
def maxNesting : Nat := 980

/-- Most bytes of one name. -/
def maxNameBytes : Nat := 255

/-- Where a path leads: names without links from the root on, and what lies there, if anything. -/
structure Spot where
  names : List String
  node : Option DiskNode
deriving Inhabited

/-- The fault of a name that no folder can hold. -/
def nameFault? (name : String) : Option FileFault :=
  if name.toList.contains '\x00' then some .nullCharacter
  else if maxNameBytes < (Utf8.encode name).length then some .longName
  else none

namespace DiskNode

/--
Follows `names` from the folder `here`. Every link that is followed uses up one
of `links`.
-/
def follow (root : DiskNode) (links : Nat) (names here : List String) :
    Except FileFault Spot :=
  match names with
  | [] => .ok ⟨here, root.at? here⟩
  | name :: rest =>
    if name == ".." then follow root links rest here.dropLast
    else
      match nameFault? name with
      | some fault => .error fault
      | none =>
        let spot := here ++ [name]
        match root.at? spot with
        | none => if rest.isEmpty then .ok ⟨spot, none⟩ else .error .missing
        | some (.folder _) => follow root links rest spot
        | some (.file bytes modified) =>
          if rest.isEmpty then .ok ⟨spot, some (.file bytes modified)⟩ else .error .notFolder
        | some (.link target) =>
          match links with
          | 0 => .error .linkLoop
          | links + 1 =>
            let path := PurePath.ofString target
            follow root links (path.names ++ rest) (if path.isAbsolute then [] else here)
termination_by (links, names.length)

/-- What a path from the root leads to. -/
def locate (root : DiskNode) (names : List String) : Except FileFault Spot :=
  follow root maxLinks names []

/-- What lies at a path, which is a fault if nothing does. -/
def stat (root : DiskNode) (names : List String) : Except FileFault DiskNode :=
  match root.locate names with
  | .ok ⟨_, some node⟩ => .ok node
  | .ok ⟨_, none⟩ => .error .missing
  | .error fault => .error fault

/-- The bytes of the file at a path. -/
def read (root : DiskNode) (names : List String) : Except FileFault (List UInt8) :=
  match root.stat names with
  | .ok (.file bytes _) => .ok bytes
  | .ok _ => .error .isFolder
  | .error fault => .error fault

/-- Whether something lies at a path. A path that cannot be followed leads to nothing. -/
def hasPath (root : DiskNode) (names : List String) : Except FileFault Bool :=
  match root.stat names with
  | .ok _ => .ok true
  | .error .longName => .error .longName
  | .error _ => .ok false

/-- Whether a folder lies at a path. -/
def isFolderAt (root : DiskNode) (names : List String) : Bool :=
  match root.stat names with
  | .ok (.folder _) => true
  | _ => false

/-- What comes of replacing the links on a path. -/
inductive Replaced where
  /-- The path without links. -/
  | done (names : List String)
  /-- The path as far as a link that leads back to itself, and what is left of it from there on. -/
  | loop (names : List String)
  /-- More links lead into one another than can be followed. -/
  | tooDeep
deriving Repr, DecidableEq, Inhabited

/--
Replaces links by what they lead to, as far as there is anything: `here` is the
path so far, and `active` are the links that are being replaced.
-/
def replaceLinks (root : DiskNode) (depth : Nat) (active : List (List String))
    (names here : List String) : Replaced :=
  match names with
  | [] => .done here
  | name :: rest =>
    if name == ".." then replaceLinks root depth active rest here.dropLast
    else
      let spot := here ++ [name]
      match root.at? spot with
      | some (.link target) =>
        if active.contains spot then .loop (spot ++ rest)
        else
          match depth with
          | 0 => .tooDeep
          | depth + 1 =>
            let path := PurePath.ofString target
            match replaceLinks root depth (spot :: active) path.names
                (if path.isAbsolute then [] else here) with
            | .done names => replaceLinks root (depth + 1) active rest names
            | .loop names => .loop (names ++ rest)
            | .tooDeep => .tooDeep
      | _ => replaceLinks root depth active rest spot
termination_by (depth, names.length)

/-- Names without steps upwards, which take away the name before them. -/
def normalNames (names : List String) : List String :=
  names.foldl (fun done name => if name == ".." then done.dropLast else done ++ [name]) []

/-- The path from the root on as text. -/
def pathText (names : List String) : String :=
  "/" ++ "/".intercalate names

/-- The failure of following links that lead deeper and deeper. -/
def tooDeep : Unexpected :=
  ⟨"RecursionError", "maximum recursion depth exceeded"⟩

/-- The failure of following a link that leads back to itself. -/
def linkLoop (names : List String) : Unexpected :=
  ⟨"RuntimeError", "Symlink loop from " ++ Text.quoted (pathText names)⟩

/-- The path without links. A link that leads back to itself is left as it is if it is not needed. -/
def resolve (root : DiskNode) (names : List String) : Except Unexpected (List String) :=
  if names.any fun name => name.toList.contains '\x00' then
    .error (FileFault.nullCharacter.unexpected "")
  else
    match root.replaceLinks maxNesting [] names [] with
    | .done names => .ok (normalNames names)
    | .loop names =>
      match root.locate (normalNames names) with
      | .error .linkLoop => .error (linkLoop (normalNames names))
      | _ => .ok (normalNames names)
    | .tooDeep => .error tooDeep

end DiskNode

end RepoAtlas
