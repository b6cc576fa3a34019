import RepoAtlas.Analysis.Role

/-!
Which files are analyzed, and in which order.
-/
namespace RepoAtlas

open Pattern Text

/-- Folders whose files are always analyzed. -/
def structuralFolders : List String :=
  ["components", "app", "pages", "hooks", "context", "contexts", "lib", "utils", "helpers",
    "services", "layouts", "config", "constants", "providers", "store"]

/-- Stems of files with a meaning of their own. -/
def specialStems : List String :=
  ["page", "layout", "loading", "error", "not-found", "global-error", "template", "route", "_app",
    "_document"]

/-- The inner ending of a file of tests. -/
def testEnding : Pattern :=
  sequence [text ".", either (text "test") (text "spec"), sourceEnding]

/-- Whether a file holds tests. -/
def isTestFile (path : String) : Bool :=
  testEnding.occursIn path || isBelow ["__tests__"] path

/-- A default export, or a clause of exports. -/
def clearExport : Pattern :=
  either (sequence [text "export", space, text "default", wordEdge])
    (sequence [text "export", blanks, text "\x7b", many (· != '\x7d'), text "\x7d"])

/-- The exported declaration of a component or provider. -/
def declarationExport : Pattern :=
  sequence [text "export", space, possibleWord "declare", possibleWord "default",
    choice (text "function") [text "class", text "const"], space, many Unicode.isWordChar,
    either (text "Component") (text "Provider"), wordEdge]

/-- Whether a file is analyzed. -/
def isCandidate (path content : String) : Bool :=
  if !isSourceFile path || isTestFile path then false
  else if isEndingOf ".d.ts" path then declarationExport.occursIn content
  else
    isBelow structuralFolders path || specialStems.contains (stemOf path) ||
      isHookStem (stemOf path) || looksLikeComponent content || hookExport.occursIn content ||
      clearExport.occursIn content

/-- Kinds of paths, the first to be analyzed first. -/
def rankedPaths : List Pattern :=
  [appPage, pagesFile, appLayout, sequence [text "/", either (text "_app") (text "_document"),
    sourceEnding], appState, text "/components/", text "/hooks/",
    sequence [text "/context", possibly (text "s"), text "/"],
    sequence [text "/", either (text "lib") (text "utils"), text "/"], configFile]

/-- The rank of a file: how many kinds of paths come before its own. -/
def candidateRank (path : String) : Nat :=
  rankedPaths.findIdx fun p => p.occursIn (anchored path)

/-- Folders of generated files and of other people's. -/
def excludedFolders : List String :=
  ["node_modules", ".next", "dist", "build", ".git"]

/-- Whether some part of a path is an excluded folder. -/
def isExcluded (path : String) : Bool :=
  (splitOnChar '/' path).any excludedFolders.contains

/-- Whether a record is a file that may be analyzed. -/
def isSelectable (allFiles : Bool) (r : FileRecord) : Bool :=
  r.type == .blob && !isExcluded r.path && (allFiles || isSourceFile r.path)

/-- Whether a record need not stand behind another one. -/
def ranksBefore (a b : FileRecord) : Bool :=
  candidateRank a.path ≤ candidateRank b.path

/-- The first items of a list if their number is limited; a limit below one is none. -/
def limited (limit : Option Int) (items : List α) : List α :=
  match limit with
  | some n => if 0 < n then items.take n.toNat else items
  | none => items

/-- The files to analyze, ordered by rank; files of one rank keep their order. -/
def selectCandidates (limit : Option Int) (allFiles : Bool) (files : List FileRecord) :
    List FileRecord :=
  limited limit ((files.filter (isSelectable allFiles)).mergeSort ranksBefore)

end RepoAtlas
