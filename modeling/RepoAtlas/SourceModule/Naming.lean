import RepoAtlas.Text.PurePath
import RepoAtlas.SourceModule.Facts

/-!
Names of units: from the facts of a module, from the path of its file, and from
the way other modules import it.
-/
namespace RepoAtlas

open Text

/-- The endings of source files, in the order in which they are tried. -/
def sourceEndings : List String :=
  [".js", ".jsx", ".ts", ".tsx", ".mjs", ".cjs"]

/-- A text without the first of the source endings that it has. -/
def withoutEnding (s : String) : String :=
  match sourceEndings.findSome? fun ending => beforeEnd? ending.toList s.toList with
  | some stem => String.ofList stem
  | none => s

/-- The last name of a path without its source ending. -/
def stemOf (path : String) : String :=
  withoutEnding (PurePath.ofString path).name

/-- Whether a path has a source ending, in any case of letters. -/
def isSourceFile (path : String) : Bool :=
  let lowered := Unicode.lowercase path
  sourceEndings.any fun ending => isEndingOf ending lowered

/-- Whether a name looks like one of a unit: capitalized, or `use` and a capital. -/
def isUnitName (name : String) : Bool :=
  Unicode.startsUpper name ||
    match afterStart? "use".toList name.toList with
    | some (c :: _) => Unicode.isUpper c
    | _ => false

/-- The name of the unit in a file, from its path alone. -/
def nameFromPath (path : String) : String :=
  let stem := stemOf path
  let folder := (PurePath.ofString path).parent.name
  let name := if stem == "index" && folder != "" then folder else stem
  if isUnitName name then name else Unicode.capitalize name

/-- Keeps the first of equal names and drops empty ones. -/
def distinctNames (names : List String) : List String :=
  distinct (names.filter (· != ""))

/-- The parts of an import specifier that may name something. -/
def specifierParts (specifier : String) : List String :=
  (splitOnChar '/' specifier).filter fun part => !(["", ".", "..", "@", "~"].contains part)

/-- The names that the unit behind an import specifier may have. -/
def moduleNames (specifier : String) : List String :=
  let parts := specifierParts specifier
  match parts.getLast? with
  | none => []
  | some last =>
    let base := withoutEnding last
    let named (base : String) : List String :=
      if base == "" then [] else distinctNames [base, Unicode.capitalize base]
    if base == "index" then
      match parts.dropLast.getLast? with
      | some folder => named folder
      | none => []
    else named base

namespace ModuleFacts

/--
The name of the unit in a module: its default export, else its first function,
class or constant that looks like a unit, else what the path says.
-/
def unitName (facts : ModuleFacts) (path : String) : String :=
  match facts.defaultExport with
  | some name => if name == "" then fallback else name
  | none => fallback
where
  fallback : String :=
    ((facts.functions ++ facts.classes ++ facts.constants).find? isUnitName).getD
      (nameFromPath path)

/-- Whether an import specifier names a module of the same repository. -/
def isLocal (specifier : String) : Bool :=
  ["./", "../", "@/", "~/"].any fun start => isStartOf start specifier

/-- The names that a module refers to: local imports, then calls. -/
def references (facts : ModuleFacts) : List String :=
  distinctNames
    (((facts.imports.filter fun binding => isLocal binding.source).flatMap fun binding =>
      binding.names ++ moduleNames binding.source) ++ facts.calls)

end ModuleFacts

end RepoAtlas
