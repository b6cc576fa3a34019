import RepoAtlas.Failure

/-!
Why a file cannot be reached.
-/
namespace RepoAtlas

inductive FileFault where
  | missing
  | exists
  | notFolder
  | isFolder
  | linkLoop
  | longName
  /-- The path holds a character that no path may hold. -/
  | nullCharacter
deriving Repr, DecidableEq, Inhabited

namespace FileFault

/-- The number of a fault, and its wording. -/
def description : FileFault → String
  | missing => "[Errno 2] No such file or directory"
  | «exists» => "[Errno 17] File exists"
  | notFolder => "[Errno 20] Not a directory"
  | isFolder => "[Errno 21] Is a directory"
  | linkLoop => "[Errno 40] Too many levels of symbolic links"
  | longName => "[Errno 36] File name too long"
  | nullCharacter => "embedded null byte"

/-- The text of a fault at a path. -/
def message (path : String) : FileFault → String
  | nullCharacter => nullCharacter.description
  | fault => fault.description ++ ": " ++ Text.quoted path

/-- Faults of the file system itself, which a bad path does not reach. -/
def isStorage : FileFault → Bool
  | nullCharacter => false
  | _ => true

/-- The kind that a fault has where nothing catches it. -/
def kind : FileFault → String
  | missing => "FileNotFoundError"
  | «exists» => "FileExistsError"
  | notFolder => "NotADirectoryError"
  | isFolder => "IsADirectoryError"
  | nullCharacter => "ValueError"
  | _ => "OSError"

def unexpected (path : String) (fault : FileFault) : Unexpected :=
  ⟨fault.kind, fault.message path⟩

end FileFault

end RepoAtlas
