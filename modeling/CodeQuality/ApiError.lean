import CodeQuality.Http.Message
import CodeQuality.Json.Document
import CodeQuality.Text.Blank
import CodeQuality.Url.Basic

/-!
# Failed calls

Why a call has failed: the server has refused it, was not reached, or has answered something that is
not what was asked for. What the server says in the body of a refusal becomes the message: the
messages it lists, or its one message, or the body itself, or else the phrase of the status.
-/

namespace CodeQuality

/-- Why a call has failed. -/
inductive ApiError where
  | badRequest (message : String)
  | unauthorized (message : String)
  | forbidden (message : String)
  | notFound (message : String)
  | server (status : Http.Status) (message : String)
  | http (status : Http.Status) (message : String)
  | network (failure : Http.Failure)
  | schema (failure : Json.Failure)
  | invalidUrl (error : UrlError)
deriving DecidableEq, Repr

namespace ApiError

/-- The messages that a body lists. -/
def listed (body : Json.Value) : List String :=
  (((body.get? "errors").bind Json.Value.asList?).getD []).filterMap fun e =>
    (e.get? "msg").bind Json.Value.asText?

/-- What a body in JSON says. -/
def said (body : Json.Value) : Option String :=
  match listed body with
  | [] => (body.get? "message").bind Json.Value.asText?
  | messages => some ("; ".intercalate messages)

/-- What a body says, if it is in JSON. -/
def explanation? (body : String) : Option String :=
  match Json.Value.read body with
  | .ok v => said v
  | .error _ => none

/-- The message for a refusal with this status and body. -/
def messageOf (status : Http.Status) (body : String) : String :=
  match explanation? body with
  | some s => s
  | none =>
    let body := Text.trim body
    if body.isEmpty then status.reason?.getD "no response body" else body

/-- The error for a response that is no success. -/
def ofResponse (status : Http.Status) (body : String) : ApiError :=
  let message := messageOf status body
  match status.code with
  | 400 => .badRequest message
  | 401 => .unauthorized message
  | 403 => .forbidden message
  | 404 => .notFound message
  | _ => if status.isServerError then .server status message else .http status message

/-- The status with which the server has refused the call. -/
def status? : ApiError → Option Http.Status
  | badRequest _ => some ⟨400⟩
  | unauthorized _ => some ⟨401⟩
  | forbidden _ => some ⟨403⟩
  | notFound _ => some ⟨404⟩
  | server s _ => some s
  | http s _ => some s
  | network _ => none
  | schema _ => none
  | invalidUrl _ => none

def message : ApiError → String
  | badRequest m => "Bad request: " ++ m
  | unauthorized m => "Authentication required: " ++ m
  | forbidden m => "Permission denied: " ++ m
  | notFound m => "Resource not found: " ++ m
  | server s m => "Server error (" ++ s.text ++ "): " ++ m
  | http s m => "API error (" ++ s.text ++ "): " ++ m
  | network f => "Network error: " ++ f.message
  | schema f => "Unexpected response: " ++ f.message
  | invalidUrl e => "Invalid server URL: " ++ e.message

/-- The messages of what lies behind the error. -/
def causes : ApiError → List String
  | network f => f.message :: f.causes
  | schema f => [f.message]
  | invalidUrl e => [e.message]
  | badRequest _ | unauthorized _ | forbidden _ | notFound _ | server _ _ | http _ _ => []

/-- The message, followed by those of what lies behind the error. -/
def chain (e : ApiError) : String := ": ".intercalate (e.message :: e.causes)

end ApiError
end CodeQuality
