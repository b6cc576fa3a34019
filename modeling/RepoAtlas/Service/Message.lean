import RepoAtlas.Event
import RepoAtlas.Text.Percent

/-!
Requests to the service and its answers.
-/
namespace RepoAtlas

structure ServiceRequest where
  /-- The method in capital letters. -/
  method : String
  path : String
  body : List UInt8 := []
deriving Repr, Inhabited

/-- What an answer of the service holds. -/
inductive ServiceBody where
  | document (v : Json)
  | text (s : String)
  | stream (events : List Event)
  /-- The places in a request that do not do. -/
  | invalid (places : List (List String))
  /-- The path to ask for instead. -/
  | moved (path : String)
deriving Inhabited

structure ServiceResponse where
  status : Nat
  body : ServiceBody
deriving Inhabited

namespace ServiceBody

/-- The kind of document that an answer says it holds. -/
def mediaType : ServiceBody → String
  | document _ | invalid _ => "application/json"
  | text _ | moved _ => "text/plain; charset=utf-8"
  | stream _ => "text/event-stream; charset=utf-8"

/-- The place of a fault as JSON. -/
def placeJson (place : List String) : Json :=
  .obj [("loc", Json.strings place)]

/-- An answer as text. -/
def render : ServiceBody → String
  | document v => v.compact
  | text s => s
  | stream events => String.join (events.map Event.frame)
  | invalid places => (Json.obj [("detail", .arr (places.map placeJson))]).compact
  | moved _ => ""

end ServiceBody

namespace ServiceResponse

/-- An answer that names what is wrong. -/
def refusal (status : Nat) (field message : String) : ServiceResponse :=
  ⟨status, .document (.obj [(field, .str message)])⟩

def notFound : ServiceResponse := refusal 404 "detail" "Not Found"

def wrongMethod : ServiceResponse := refusal 405 "detail" "Method Not Allowed"

def unreadableBody : ServiceResponse :=
  refusal 400 "detail" "There was an error parsing the body"

/-- The answer where something was not foreseen. -/
def internalError : ServiceResponse := ⟨500, .text "Internal Server Error"⟩

def invalid (places : List (List String)) : ServiceResponse := ⟨422, .invalid places⟩

def document (v : Json) : ServiceResponse := ⟨200, .document v⟩

end ServiceResponse

end RepoAtlas
