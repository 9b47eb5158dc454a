import PackageStaging.Url.Basic

namespace PackageStaging

def programName : String := "pkgstage"

def programVersion : String := "0.1.0"

namespace Http

def agent : String := programName ++ "/" ++ programVersion

structure Request where
  url : Url
  agent : String
  deriving DecidableEq

structure Response where
  status : Nat
  body : ByteArray

def Response.isSuccess (r : Response) : Bool := 200 ≤ r.status && r.status < 300

inductive TransportError
  | notAUrl
  | unsupported (url : Url)
  | unanswered (url : Url)
  deriving DecidableEq

def withoutUser (u : Url) : Url := { u with username := "", password := none }

def TransportError.message : TransportError → String
  | notAUrl => "builder error"
  | unsupported url => "builder error for url (" ++ (withoutUser url).render ++ ")"
  | unanswered url => "error sending request for url (" ++ (withoutUser url).render ++ ")"

def isQuoteOrBrace (c : Char) : Bool := c == '"' || c == '\x60' || c == '\x7b' || c == '\x7d'

/-- Whether a request can be made for a URL: its scheme has to be one of HTTP, and its host must
not hold quotes or braces. -/
def isRequestable (u : Url) : Bool :=
  (u.scheme == "http" || u.scheme == "https") &&
    !(u.host.elim "" Host.render).toList.any isQuoteOrBrace

class Network (m : Type → Type) where
  fetch : Request → m (Option Response)

variable {m : Type → Type} [Monad m] [Network m]

def get (text : String) : ExceptT TransportError m Response := do
  match Url.read text with
  | .error _ => throw .notAUrl
  | .ok url =>
    if isRequestable url then
      match ← (Network.fetch ⟨url, agent⟩ : m (Option Response)) with
      | some response => return response
      | none => throw (.unanswered url)
    else throw (.unsupported url)

end Http

end PackageStaging
