import RepoAtlas.Entity

/-!
What the syntax of a module shows about it.
-/
namespace RepoAtlas

/-- The dialect that a module is read in. -/
inductive Dialect where
  | plain
  /-- With markup elements as expressions. -/
  | markup
deriving Repr, DecidableEq, Inhabited

namespace Dialect

def name : Dialect → String
  | plain => "typescript"
  | markup => "tsx"

end Dialect

/-- What one import statement names: the module, and the names it binds. -/
structure ImportBinding where
  source : String
  names : List String := []
deriving Repr, DecidableEq, Inhabited

/-- The members of each interface, in the order in which the names first appear. -/
abbrev Interfaces := Table (List InterfaceField)

/-- The structure of one module. -/
structure ModuleFacts where
  dialect : Dialect
  isClient : Bool := false
  imports : List ImportBinding := []
  defaultExport : Option String := none
  functions : List String := []
  constants : List String := []
  classes : List String := []
  exports : List String := []
  calls : List String := []
  memberCalls : List String := []
  interfaces : Interfaces := []
  hasMarkup : Bool := false
  description : Option String := none
deriving Repr, DecidableEq, Inhabited

end RepoAtlas
