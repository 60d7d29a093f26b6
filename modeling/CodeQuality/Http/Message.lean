import CodeQuality.Http.Charset
import CodeQuality.Http.MediaType
import CodeQuality.Http.Status
import CodeQuality.Program
import CodeQuality.Text.Base64
import CodeQuality.Url.Basic
import CodeQuality.Url.Form

/-!
# Requests and responses

What is sent to a server and what comes back. A request either asks, and then its pairs are the
query of its URL, or it tells something, and then they are a form in its body. User information of a
URL is not sent with it but as a header. A `Transport` is whatever carries requests: for each it
says how delivery ended.
-/

namespace CodeQuality
namespace Http

inductive Method where
  | get
  | post
deriving DecidableEq, Repr

def Method.text : Method → String
  | get => "GET"
  | post => "POST"

/-- What is sent to a server. -/
structure Request where
  method : Method
  url : Url
  /-- user name and password, if the URL had any -/
  authorization : Option String
  /-- the form in the body, if there is one -/
  form : Option String
deriving DecidableEq, Repr

/-- What a server sends back: the last response, if the server first sends the client elsewhere.
Going there is left to what carries the request, which is seen as one delivery. -/
structure Response where
  status : Status
  contentType : Option String
  body : List UInt8
deriving DecidableEq, Repr

/-- What went wrong when a request was carried, in the words of what carries it, and what lies
behind that. -/
structure Failure where
  message : String := ""
  causes : List String := []
deriving DecidableEq, Repr

/-- How the delivery of a request ended. -/
inductive Delivery where
  /-- no connection was made, and the server has seen nothing -/
  | unreachable (failure : Failure := {})
  /-- the server took the request, and no whole answer came back -/
  | unanswered (failure : Failure := {})
  | answered (response : Response)
deriving DecidableEq, Repr

namespace Delivery

/-- Has the server seen the request? -/
def isSeen : Delivery → Bool
  | unreachable _ => false
  | unanswered _ | answered _ => true

/-- What went wrong, if there is no answer. -/
def failure? : Delivery → Option Failure
  | unreachable failure | unanswered failure => some failure
  | answered _ => none

end Delivery

/-- Whatever carries requests to servers. -/
abbrev Transport := Request → Delivery

/-- The transport that reaches no server. -/
def Transport.offline : Transport := fun _ => .unreachable { message := "no network" }

namespace Response

/-- The body as a text. -/
def text (r : Response) : String :=
  Charset.textOf ((r.contentType.bind MediaType.charset?).bind Charset.ofLabel?) r.body

end Response

/-! ### Addressing -/

/-- The octets that an escaped part of a URL stands for, if they are a text. -/
def unescaped? (cs : List Char) : Option (List Char) := Text.ofOctets? (Percent.decode cs)

/-- The header for the user information of `u`. A password that is no text does not count, and a
user name that is none leaves nothing to send. -/
def credentials? (u : Url) : Option String := do
  if u.username.isEmpty && u.password.isEmpty then none
  let username ← unescaped? u.username
  let password := (unescaped? u.password).getD []
  let octets := Text.octets (username ++ ':' :: password)
  return "Basic " ++ String.ofList (Text.Base64.encode octets)

/-- `u` without user information and fragment. -/
def bare (u : Url) : Url := { u with username := [], password := [], fragment := none }

/-- `u` with `pairs` behind its query. -/
def withPairs (u : Url) (pairs : List (String × String)) : Url :=
  let old := u.query.getD []
  let new := Form.encode pairs
  let query := if old.isEmpty || new.isEmpty then old ++ new else old ++ '&' :: new
  { u with query := if query.isEmpty then none else some query }

namespace Request

/-- A request that asks for what `pairs` describe. -/
def ask (u : Url) (pairs : List (String × String)) : Request :=
  { method := .get, url := withPairs (bare u) pairs, authorization := credentials? u, form := none }

/-- A request that tells the server `pairs`. -/
def tell (u : Url) (pairs : List (String × String)) : Request :=
  { method := .post, url := bare u, authorization := credentials? u, form := some (Form.text pairs) }

/-- The name under which the client makes itself known. -/
def userAgent : String := programName ++ "/" ++ version

/-- The headers of a request. -/
def headers (r : Request) : List (String × String) :=
  [("accept", "*/*"), ("user-agent", userAgent)] ++
    (r.authorization.map ("authorization", ·)).toList ++
    (if r.form.isSome then [("content-type", "application/x-www-form-urlencoded")] else [])

end Request
end Http
end CodeQuality
