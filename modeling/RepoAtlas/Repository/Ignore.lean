import RepoAtlas.Repository.Glob
import RepoAtlas.Text.Utf8

/-!
Rules that leave files and folders out. The last rule that matches decides.
-/
namespace RepoAtlas

open Text

/-- One rule, as it is written in a list of files to ignore. -/
structure IgnoreRule where
  pattern : String
  directoryOnly : Bool
  /-- Matches whole paths only. -/
  anchored : Bool
  /-- Takes back what an earlier rule left out. -/
  negate : Bool
  hasSlash : Bool
deriving Repr, DecidableEq, Inhabited

namespace IgnoreRule

/-- Whether a rule matches a path. A rule without slashes matches any part of it. -/
def appliesTo (rule : IgnoreRule) (path : String) (isFolder : Bool) : Bool :=
  if rule.pattern == "" || (rule.directoryOnly && !isFolder) then false
  else if rule.anchored || rule.hasSlash then
    Glob.matchesText rule.pattern path ||
      (rule.directoryOnly && isStartOf (rule.pattern ++ "/") path)
  else (splitOnChar '/' path).any (Glob.matchesText rule.pattern)

/-- The rule that a text stands for; blank text stands for none. -/
def ofText? (text : String) (negate : Bool) : Option IgnoreRule :=
  let chars := (trim text).toList
  if chars.isEmpty then none
  else
    let directoryOnly := endsIn ['/'] chars
    let chars := if directoryOnly then chars.dropLast else chars
    let anchored := beginsWith ['/'] chars
    let chars := if anchored then chars.drop 1 else chars
    some {
      pattern := String.ofList chars
      directoryOnly, anchored, negate
      hasSlash := chars.contains '/' }

/-- The rules of configured patterns, none of which takes anything back. -/
def ofPatterns (patterns : List String) : List IgnoreRule :=
  patterns.filterMap fun p => ofText? p false

/-- The rule of one line of a list of files to ignore. -/
def ofLine? (line : List Char) : Option IgnoreRule :=
  match trimWhile Unicode.isBlank line with
  | [] => none
  | '#' :: _ => none
  | '!' :: rest => ofText? (String.ofList rest) true
  | text => ofText? (String.ofList text) false

/-- The rules in the bytes of a list of files to ignore. -/
def ofBytes (bytes : List UInt8) : List IgnoreRule :=
  (lines (universalNewlines (Utf8.decodeLossy bytes))).filterMap ofLine?

end IgnoreRule

/-- Whether some rules leave a path out. -/
def shouldIgnore (rules : List IgnoreRule) (path : String) (isFolder : Bool) : Bool :=
  rules.foldl (fun ignored rule =>
    if rule.appliesTo path isFolder then !rule.negate else ignored) false

end RepoAtlas
