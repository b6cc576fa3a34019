import RepoAtlas.Disk.Locate

/-!
What a running program finds around it: a disk, the folder it runs in, the home
folder and the variables of the environment.
-/
namespace RepoAtlas

structure Session where
  disk : DiskNode
  /-- The names that lead from the root to the folder the program runs in. -/
  current : List String
  home : List String
  environment : Table String := []
deriving Inhabited

namespace Session

/-- A path from the root on. -/
def absolute (s : Session) (p : PurePath) : List String :=
  if p.isAbsolute then p.names else s.current ++ p.names

/-- A path with a tilde at its start replaced by the home folder. -/
def expanded (s : Session) (p : PurePath) : Except Unexpected PurePath :=
  match p.isAbsolute, p.names with
  | false, first :: rest =>
    match first.toList with
    | ['~'] => .ok ⟨"/", s.home ++ rest⟩
    | '~' :: _ => .error ⟨"RuntimeError", "Could not determine home directory."⟩
    | _ => .ok p
  | _, _ => .ok p

/-- A variable that is set to some text. -/
def setting? (s : Session) (name : String) : Option String :=
  (Table.get? name s.environment).filter (· != "")

end Session

end RepoAtlas
