import RepoAtlas.Yaml.Cursor

/-!
Tokens of a YAML text.
-/
namespace RepoAtlas.Yaml

/-- What a line that starts with a percent sign says. -/
inductive Directive where
  | version (major : Nat)
  /-- A short form of the tags that start with `start`. -/
  | tagHandle (handle start : String)
  | other
deriving Repr, DecidableEq, Inhabited

/-- A tag as it is written: a suffix to the meaning of a handle, or a whole name. -/
structure WrittenTag where
  handle : Option String
  suffix : String
deriving Repr, DecidableEq, Inhabited

inductive Token where
  | directive (d : Directive)
  | documentStart
  | documentEnd
  | streamEnd
  | blockSequenceStart
  | blockMappingStart
  | blockEnd
  | flowSequenceStart
  | flowSequenceEnd
  | flowMappingStart
  | flowMappingEnd
  | blockEntry
  | flowEntry
  | key
  | value
  | alias (name : String)
  | anchor (name : String)
  | tag (written : WrittenTag)
  | scalar (text : String) (plain : Bool)
deriving Repr, DecidableEq, Inhabited

end RepoAtlas.Yaml
