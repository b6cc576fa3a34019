import RepoAtlas.Http.Address
import RepoAtlas.Http.Response
import RepoAtlas.Text.Ascii

/-!
Asking for documents. Answers that send the client elsewhere are followed, and
what is secret is not taken along to another host.
-/
namespace RepoAtlas

/-- A request for a document. -/
structure Request where
  address : Address
  accept : String := "*/*"
  authorization : Option String := none
  userAgent : String
deriving Repr, Inhabited

/-- What comes of a request: an answer, or a failure on the way. -/
inductive Delivery where
  | answered (r : Response)
  | failed (message : String)
deriving Repr, Inhabited

/-- What answers requests. -/
abbrev Network := Request → Delivery

/-- Why there is no answer. -/
inductive ExchangeFault where
  /-- The request was sent, but no answer came. -/
  | lost (message : String)
  | tooManyRedirections
  /-- A redirection leads to no address. -/
  | badTarget (cause : AddressFault)
deriving Repr, DecidableEq, Inhabited

def ExchangeFault.message : ExchangeFault → String
  | lost message => message
  | tooManyRedirections => "Exceeded maximum allowed redirects."
  | badTarget cause => "Invalid URL in location header: " ++ cause.message ++ "."

namespace Request

def methodName : String := "GET"

/-- Most redirections that are followed. -/
def maxRedirections : Nat := 20

/-- Where a redirection leads that is found at an address. -/
def target (source : Address) (location : String) : Except ExchangeFault Address :=
  match Address.ofString location with
  | .error fault => .error (.badTarget fault)
  | .ok found =>
    let placed :=
      if found.scheme != "" && found.host == "" then { found with host := source.host } else found
    let target := if placed.isAbsolute then placed else source.join placed
    .ok (if target.fragment.getD "" == "" && source.fragment.getD "" != "" then
        { target with fragment := source.fragment }
      else target)

/-- The request for the target of a redirection. -/
def redirected (r : Request) (target : Address) : Request :=
  let trusted := r.address.sameOrigin target || r.address.isUpgrade target
  { r with address := target, authorization := if trusted then r.authorization else none }

/-- Sends a request and follows redirections. Gives the requests that were sent, too. -/
def send (network : Network) : (redirections : Nat) → Request →
    Except ExchangeFault Response × List Request
  | redirections, r =>
    match network r with
    | .failed message => (.error (.lost message), [r])
    | .answered response =>
      match response.redirection? with
      | none => (.ok response, [r])
      | some location =>
        match target r.address location, redirections with
        | .error fault, _ => (.error fault, [r])
        | .ok _, 0 => (.error .tooManyRedirections, [r])
        | .ok address, redirections + 1 =>
          let (result, sent) := send network redirections (r.redirected address)
          (result, r :: sent)

end Request

end RepoAtlas
