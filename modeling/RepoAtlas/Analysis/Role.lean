import RepoAtlas.Pattern
import RepoAtlas.SourceModule.Naming

/-!
What a source file is for: an ordered table of rules over its path and its
text, of which the first that applies decides.
-/
namespace RepoAtlas

open Pattern Text

/-- A dot and a source ending in lower case, at the end of the text. -/
def endingWithout (lastLetter : Pattern) : Pattern :=
  sequence [text ".", possibly (one ['c', 'm'].contains), one ['j', 't'].contains, text "s",
    lastLetter, textEnd]

/-- A source ending, at the end of the text. -/
def sourceEnding : Pattern :=
  endingWithout (possibly (text "x"))

/-- Any part of a line up to a slash, or nothing. -/
def folders : Pattern :=
  possibly (both (many (· != '\n')) (text "/"))

/-- A file in the folder `app`, at any depth, whose stem one of some texts is. -/
def appFile (first : String) (others : List String) : Pattern :=
  sequence [text "/app/", folders, choice (text first) (others.map text), sourceEnding]

def appRoute : Pattern :=
  sequence [text "/app/", folders, text "route", endingWithout nothing]

def apiRoute : Pattern :=
  text "/pages/api/"

def appPage : Pattern :=
  appFile "page" []

/-- A file in the folder `pages`, at any depth, whose name starts with no underscore. -/
def pagesFile : Pattern :=
  sequence [text "/pages/", folders, one (fun c => c != '/' && c != '_'), many (· != '/'),
    sourceEnding]

def appLayout : Pattern :=
  appFile "layout" []

def appState : Pattern :=
  appFile "loading" ["error", "not-found", "global-error", "template"]

def isDashedWordChar (c : Char) : Bool :=
  Unicode.isWordChar c || c == '-'

/-- A file with the inner ending `config`. -/
def configFile : Pattern :=
  sequence [either textStart (text "/"), oneOrMore isDashedWordChar, text ".config", sourceEnding]

/-- An inner ending that says what a file is for. -/
def utilityStem : Pattern :=
  sequence [text ".", choice (text "config") (["constants", "utils", "helpers", "types"].map text),
    textEnd]

/-- A markup element that is returned. -/
def markupReturn : Pattern :=
  sequence [either (text "return") (text "=>"), blanks, possibly (text "("), blanks, text "<",
    one fun c => c.isAlpha || c == '>']

/-- A word and white space, or nothing. -/
def possibleWord (word : String) : Pattern :=
  possibly (both (text word) space)

/-- The start of an exported declaration, with any of the words that may come first. -/
def exportStart : Pattern :=
  sequence [text "export", space, possibleWord "default", possibleWord "async"]

/-- An exported function, class or variable with a capital. -/
def capitalizedExport : Pattern :=
  sequence [exportStart,
    choice (sequence [text "function", blanks, possibly (text "*"), blanks])
      [sequence [possibleWord "abstract", text "class", space],
        both (text "const") space, both (text "let") space],
    capital]

/-- An exported function or variable with the name of a hook. -/
def hookExport : Pattern :=
  sequence [exportStart,
    choice (both (text "function") space) [both (text "const") space, both (text "let") space],
    text "use", capital]

/-- A call that makes a context. -/
def contextCall : Pattern :=
  sequence [wordEdge, text "createContext", blanks, one fun c => c == '<' || c == '(']

/-- Whether a text returns markup or exports something with a capital. -/
def looksLikeComponent (content : String) : Bool :=
  markupReturn.occursIn content || capitalizedExport.occursIn content

/-- A path with exactly one slash in front. -/
def anchored (path : String) : String :=
  "/" ++ trimStart (· == '/') path

/-- Whether one of the folders of a path has one of some names. -/
def isBelow (names : List String) (path : String) : Bool :=
  (PurePath.ofString path).directories.any names.contains

/-- Whether a stem is `use` and a Latin capital. -/
def isHookStem (stem : String) : Bool :=
  match afterStart? "use".toList stem.toList with
  | some (c :: _) => c.isUpper
  | _ => false

/-- Whether `part` stands somewhere in `s`. -/
def occursWithin (part s : String) : Bool :=
  (text part).occursIn s

/-- One row of the table: a role, and the files that have it. -/
structure RoleRule where
  name : String
  applies : (path content : String) → Bool
  role : Role

namespace RoleRule

def routeHandler : RoleRule where
  name := "route-handler"
  applies path _ := appRoute.occursIn (anchored path) || apiRoute.occursIn (anchored path)
  role := .utility

def page : RoleRule where
  name := "page"
  applies path _ := appPage.occursIn (anchored path) || pagesFile.occursIn (anchored path)
  role := .page

def layout : RoleRule where
  name := "layout"
  applies path _ :=
    let stem := stemOf path
    appLayout.occursIn (anchored path) || isBelow ["layouts"] path ||
      ["layout", "_app", "_document"].contains stem ||
      (isEndingOf "Layout" stem && Unicode.startsUpper stem)
  role := .layout

def pageState : RoleRule where
  name := "page-state"
  applies path _ := appState.occursIn (anchored path)
  role := .page

def hook : RoleRule where
  name := "hook"
  applies path content :=
    isBelow ["hooks"] path || isHookStem (stemOf path) || hookExport.occursIn content
  role := .hook

def context : RoleRule where
  name := "context"
  applies path content :=
    let stem := stemOf path
    isBelow ["context", "contexts", "providers"] path || occursWithin "Context" stem ||
      occursWithin "Provider" stem || contextCall.occursIn content
  role := .context

def utility : RoleRule where
  name := "utility"
  applies path content :=
    isBelow ["lib", "utils", "helpers", "services", "config", "constants", "store"] path ||
      configFile.occursIn path || utilityStem.occursIn (stemOf path) ||
      !looksLikeComponent content
  role := .utility

/-- The table. The first rule that applies wins. -/
def table : List RoleRule :=
  [routeHandler, page, layout, pageState, hook, context, utility]

/-- The rules that apply to a file, in the order of the table. -/
def applying (path content : String) : List RoleRule :=
  table.filter fun rule => rule.applies path content

end RoleRule

namespace Role

/-- The role that the table gives to a file. -/
def ofTable? (path content : String) : Option Role :=
  (RoleRule.table.find? fun rule => rule.applies path content).map RoleRule.role

/-- The role of a file; where no rule applies it is a component. -/
def ofFile (path content : String) : Role :=
  (ofTable? path content).getD .component

end Role

end RepoAtlas
