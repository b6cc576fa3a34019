import RepoAtlas.Text.Quoted

/-!
What can go wrong in an analysis, by cause.
-/
namespace RepoAtlas

/-- A failure that is not foreseen by the analysis: its kind and its text. -/
structure Unexpected where
  kind : String
  message : String
deriving Repr, DecidableEq, Inhabited

inductive Failure where
  | badConfig (message : String)
  /-- A location that names no repository, as it is shown. -/
  | invalidRepository (shown : String)
  | repositoryNotFound (message : String)
  | repositoryUnavailable (message : String)
  | unreadableFile (path reason : String)
  | unparsable (message : String)
  | generic (message : String)
  | unexpected (cause : Unexpected)
deriving Repr, DecidableEq, Inhabited

namespace Failure

def message : Failure → String
  | badConfig m => m
  | invalidRepository shown => "Invalid GitHub repository URL: " ++ shown
  | repositoryNotFound m => m
  | repositoryUnavailable m => m
  | unreadableFile path reason => "Failed to fetch " ++ path ++ ": " ++ reason
  | unparsable m => m
  | generic m => m
  | unexpected cause => cause.message

/-- The kinds of failures of a file system. -/
def storageKinds : List String :=
  ["OSError", "FileNotFoundError", "FileExistsError", "NotADirectoryError", "IsADirectoryError",
    "PermissionError"]

/-- Whether a failure is one of a file system. -/
def isStorage : Failure → Bool
  | unexpected cause => storageKinds.contains cause.kind
  | _ => false

/-- Whether the analysis foresees a failure. -/
def isForeseen : Failure → Bool
  | unexpected _ => false
  | _ => true

end Failure

end RepoAtlas
