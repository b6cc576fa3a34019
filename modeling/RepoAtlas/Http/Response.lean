import RepoAtlas.Failure
import RepoAtlas.Json.Encoded
import RepoAtlas.Text.Charset

/-!
Answers from the network, and reading what they hold.
-/
namespace RepoAtlas

structure Response where
  status : Nat
  /-- Headers by their names in lower case. -/
  headers : Table String := []
  body : List UInt8 := []
deriving Repr, Inhabited

namespace Response

def header? (r : Response) (name : String) : Option String :=
  Table.get? name r.headers

/-- Whether an answer says that the request failed. -/
def isError (r : Response) : Bool :=
  400 ≤ r.status && r.status ≤ 599

/-- Where an answer sends the client instead. -/
def redirection? (r : Response) : Option String :=
  if [301, 302, 303, 307, 308].contains r.status then r.header? "location" else none

/-- The body as text, in the character set that is named. -/
def text (r : Response) : String :=
  String.ofList ((Charset.ofContentType (r.header? "content-type")).decode r.body)

/-- Why a body is no JSON document; that it is too deep is not foreseen. -/
inductive BodyFault where
  | notJson
  | tooDeep (cause : Unexpected)
deriving Repr, DecidableEq, Inhabited

/-- The JSON document in the body. -/
def json (r : Response) : Except BodyFault Json :=
  match Json.textOfBytes? r.body with
  | none => .error .notJson
  | some text =>
    match Json.readLoose text with
    | .ok v => .ok v
    | .error (.tooDeep list) =>
      .error (.tooDeep ⟨"RecursionError", (Json.ReadError.tooDeep list).messageIn text⟩)
    | .error _ => .error .notJson

end Response

end RepoAtlas
