import CodeQuality.Journal
import CodeQuality.Json.Schema.Reader
import CodeQuality.Text.Quoted
import CodeQuality.Url.Reader

/-!
# Clients

A client talks to one server, whose root its base URL names. A call appends a path to that URL,
sends one request, and makes of the answer what the caller asked for; a call that fails reports its
error to the client's sink before it hands it on.
-/

namespace CodeQuality

/-- How a client behaves. -/
structure ClientOptions where
  /-- are the sample pull requests appended to branch listings? -/
  mockMode : Bool := false
  /-- after how many seconds a call is given up -/
  timeout : Option Nat := none
deriving DecidableEq, Repr

structure Client where
  baseUrl : Url
  options : ClientOptions
  sink : Sink
  transport : Http.Transport

namespace Client

/-- A client for the server whose root `base` names. -/
def connect (base : String) (options : ClientOptions) (sink : Sink) (transport : Http.Transport) :
    Except ApiError Client :=
  match Url.read base with
  | .ok baseUrl => .ok { baseUrl, options, sink, transport }
  | .error e => .error (.invalidUrl e)

/-- The client with mock mode switched on or off. -/
def withMockMode (c : Client) (enabled : Bool) : Client :=
  { c with options := { c.options with mockMode := enabled } }

/-- Appends a path to the text of a URL, with one slash between them. -/
def appendPath (base path : String) : String :=
  Text.trimEndWhile (· = '/') base ++ "/" ++ Text.trimStartWhile (· = '/') path

/-- The URL of a path below the server's root. -/
def endpoint (c : Client) (path : String) : Except ApiError Url :=
  (Url.read (appendPath c.baseUrl.text path)).mapError .invalidUrl

/-- A span of whole seconds. -/
def spanText (seconds : Nat) : String := if seconds = 0 then "0ns" else s!"{seconds}s"

/-- The client as it shows itself when it is debugged. -/
def describe (c : Client) : String :=
  let timeout :=
    match c.options.timeout with
    | some seconds => "Some(" ++ spanText seconds ++ ")"
    | none => "None"
  "SonarClient \x7b base_url: " ++ Text.quoted c.baseUrl.text ++
    ", options: ClientOptions \x7b mock_mode: " ++ toString c.options.mockMode ++ ", timeout: " ++
    timeout ++ " \x7d, .. \x7d"

/-! ### Calls -/

/-- Sends a request, and gives the answer if it is a success. -/
def send (c : Client) (request : Http.Request) : Action Http.Response := do
  match c.transport request with
  | .unreachable failure => throw (.network failure)
  | .unanswered failure =>
    modify (·.deliver request)
    throw (.network failure)
  | .answered response =>
    modify (·.deliver request)
    if response.status.isSuccess then return response
    else throw (.ofResponse response.status response.text)

/-- The URL of a path, where a request is about to be sent. -/
def address (c : Client) (method : Http.Method) (path : String) : Action Url := do
  let url ← ExceptT.mk (pure (c.endpoint path))
  Action.note
    { severity := .debug, message := "sending request",
      details := [("method", method.text), ("url", url.text)] }
  return url

/-- Asks for what `path` and `pairs` describe, and reads the answer by a schema. -/
def fetch (c : Client) (schema : Json.Schema) (path : String) (pairs : List (String × String)) :
    Action schema.Val :=
  Action.reporting c.sink do
    let url ← c.address .get path
    let response ← c.send (.ask url pairs)
    match schema.read response.text with
    | .ok a => return a
    | .error f => throw (.schema f)

/-- Tells the server `pairs`; of the answer only the status counts. -/
def post (c : Client) (path : String) (pairs : List (String × String)) : Action Unit :=
  Action.reporting c.sink do
    let url ← c.address .post path
    discard (c.send (.tell url pairs))

end Client
end CodeQuality
