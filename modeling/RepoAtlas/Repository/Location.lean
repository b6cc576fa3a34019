import RepoAtlas.Entity
import RepoAtlas.Failure
import RepoAtlas.Text.Trim

/-!
Reading where a repository is: the address of a repository on GitHub, or the
short form `owner/name`.
-/
namespace RepoAtlas

open Text

namespace Coordinates

/-- Whether a character may stand in the short form. -/
def isShorthandChar (c : Char) : Bool :=
  c.isAlphanum || c == '_' || c == '.' || c == '-'

/-- The owner and the name of a text in the short form. -/
def shorthand? (s : List Char) : Option (List Char × List Char) :=
  let owner := s.takeWhile isShorthandChar
  match s.drop owner.length with
  | '/' :: name =>
    if !owner.isEmpty && !name.isEmpty && name.all isShorthandChar then some (owner, name) else none
  | _ => none

/-- The owner and the name right after the name of the host. -/
def afterHost? (s : List Char) : Option (List Char × List Char) :=
  match s with
  | c :: rest =>
    if c == '/' || c == ':' then
      let owner := rest.takeWhile fun c => c != '/' && !Unicode.isBlank c
      match rest.drop owner.length with
      | '/' :: more =>
        let name := more.takeWhile fun c =>
          c != '/' && !Unicode.isBlank c && c != '#' && c != '?'
        if !owner.isEmpty && !name.isEmpty then some (owner, name) else none
      | _ => none
    else none
  | [] => none

/-- The owner and the name behind the first name of the host that they follow. -/
def address? : List Char → Option (List Char × List Char)
  | [] => none
  | c :: rest =>
    ((afterStart? "github.com".toList (c :: rest)).bind afterHost?).or (address? rest)

/-- The coordinates that a location and a branch name. The branch is `main` unless it is named. -/
def ofLocation? (location : String) (branch : Option String) : Option Coordinates :=
  let text := (trim location).toList
  match (address? text).or (shorthand? text) with
  | some (owner, name) =>
    let name := (beforeEnd? ".git".toList name).getD name
    if name.isEmpty then none
    else some {
      owner := String.ofList owner
      name := String.ofList name
      branch := match branch with
        | some b => if b == "" then "main" else b
        | none => "main" }
  | none => none

/-- The coordinates of a location, or the failure that it names none. -/
def ofLocation (location : String) (branch : Option String) : Except Failure Coordinates :=
  match ofLocation? location branch with
  | some c => .ok c
  | none => .error (.invalidRepository (quoted location))

end Coordinates

end RepoAtlas
