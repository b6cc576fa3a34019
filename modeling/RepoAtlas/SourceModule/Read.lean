import RepoAtlas.Log
import RepoAtlas.Pattern
import RepoAtlas.Syntax.Parser
import RepoAtlas.SourceModule.Collect

/-!
Reading a source file: which dialects to try, and the facts in the first of
them that its text belongs to.
-/
namespace RepoAtlas

open Pattern Syntax

/-- Characters of the name of a markup element. -/
def isElementNameChar (c : Char) : Bool :=
  Unicode.isWordChar c || c == '.'

/-- Closing tags, elements without content, and fragments. -/
def markupHint : Pattern :=
  choice
    (sequence [text "</", letter, many isElementNameChar, blanks, text ">"])
    [sequence [text "<", letter, many isElementNameChar,
      possibly (both (one Unicode.isBlank) (many fun c => c != '<' && c != '>')), text "/>"],
    text "<>", text "</>"]

/-- Whether a text ends in one of some endings. -/
def endsInAny (endings : List String) (s : String) : Bool :=
  endings.any fun ending => Text.isEndingOf ending s

/-- The dialects to try for a file, in this order. -/
def dialectsFor (path content : String) : List Dialect :=
  let lowered := Unicode.lowercase path
  if endsInAny [".tsx", ".jsx"] lowered then [.markup]
  else if endsInAny [".js", ".mjs", ".cjs"] lowered && markupHint.occursIn content then
    [.markup, .plain]
  else [.plain, .markup]

namespace ModuleFacts

/-- The facts in the first of some dialects that a text belongs to. -/
def readIn (path content : String) : List Dialect → Logged (Option ModuleFacts)
  | [] => pure none
  | dialect :: rest =>
    let source := content.toList
    match parseModule? (dialect == .markup) source with
    | some tree => pure (some (ofTree dialect source tree))
    | none => do
      Logged.tell (.debug "analyzers.parser"
        ("Parse errors in " ++ path ++ " with " ++ dialect.name ++ " grammar"))
      readIn path content rest

/-- The facts of a source file; a file that belongs to no dialect has none. -/
def read (path content : String) : Logged (Option ModuleFacts) :=
  readIn path content (dialectsFor path content)

/-- What is said of a file that belongs to no dialect. -/
def unreadableMessage (path : String) : String :=
  "Unable to parse " ++ path

end ModuleFacts

end RepoAtlas
