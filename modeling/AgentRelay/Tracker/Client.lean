import AgentRelay.Activity.Id
import AgentRelay.Script
import AgentRelay.Tracker.Reply
import AgentRelay.Tracker.Utterance

/-!
# Calls to the tracker

A client knows the endpoint and a token. Each call checks its input, asks whether the caller has
given up, sends at most one request, and judges the reply. Links are shown trimmed, without those
that have no URL, and of links with the same URL only the first one.

* `Client.of?` makes a client of an endpoint and a token that are not blank.
* `Client.post` says something on a session and answers with the id of the activity.
* `Client.link` shows links on a session.
-/

namespace AgentRelay.Tracker

open Json

/-! ### Links without repetition -/

/-- The links whose URL is neither blank nor in `seen`, each URL once. -/
def freshUrls (seen : List String) : List ExternalUrl → List ExternalUrl
  | [] => []
  | u :: urls =>
    match Text.filled? u.url with
    | none => freshUrls seen urls
    | some url =>
      if seen.contains url then freshUrls seen urls
      else ⟨Text.trim u.label, url⟩ :: freshUrls (url :: seen) urls

/-- The links to show: trimmed, with a URL, and each URL once. -/
def normalizedUrls (urls : List ExternalUrl) : List ExternalUrl := freshUrls [] urls

/-! ### Exchanges -/

/-- A request; its method is `POST`. -/
structure Request where
  url : String
  headers : List (String × String)
  body : Bytes
  deriving DecidableEq

/-- How an exchange ends. -/
inductive Exchange
  | reply (reply : Reply)
  /-- The request did not reach a server, or no reply came. -/
  | failed (fault : TransportFault)
  /-- The caller gave up while the exchange was under way. -/
  | cancelled
  deriving DecidableEq

/-- What a call asks. -/
inductive Question
  /-- Has the caller given up? -/
  | isCancelled
  | exchange (request : Request)
  deriving DecidableEq

/-- What it is answered. -/
def Answer : Question → Type
  | .isCancelled => Bool
  | .exchange _ => Exchange

/-- A call to the tracker. -/
abbrev Call (α : Type) := Script Question Answer (Except Error α)

/-- Access to a tracker. -/
structure Client where
  endpoint : String
  token : String
  deriving DecidableEq

namespace Client

/-- The client of an endpoint and a token. -/
def of? (endpoint token : String) : Except Error Client :=
  match Text.filled? endpoint with
  | none => .error .endpointRequired
  | some endpoint =>
    match Text.filled? token with
    | none => .error .tokenRequired
    | some token => .ok { endpoint, token }

/-- A text that can stand in a header: no control characters but the tab. -/
def isHeaderText (s : String) : Bool :=
  s.toList.all fun c => c == '\t' || (32 ≤ c.toNat && c.toNat != 127)

/-- What the transport says when a token cannot stand in a header. -/
def unsendable : TransportFault := ⟨"builder error", ["failed to parse header value"]⟩

/-- The request with a body. There is none when the token cannot stand in a header. -/
def request? (c : Client) (body : Bytes) : Option Request :=
  if isHeaderText c.token then
    some
      { url := c.endpoint
        headers :=
          [("authorization", "Bearer " ++ c.token), ("accept", "application/json"),
            ("content-type", "application/json")]
        body }
  else none

/-- Sends a body and finds the data of the reply. -/
def execute {α : Type} (c : Client) (operation : String) (r : Reader α) (body : Bytes) :
    Call (Option α) :=
  .ask .isCancelled fun (isCancelled : Bool) =>
    if isCancelled then .done (.error (.cancelled operation))
    else match c.request? body with
      | none => .done (.error (.transport operation unsendable))
      | some request =>
        .ask (.exchange request) fun (exchange : Exchange) =>
          .done (match exchange with
            | .reply reply => reply.data operation r
            | .failed fault => .error (.transport operation fault)
            | .cancelled => .error (.cancelled operation))

/-! ### Activities -/

/-- The name of the operation that makes an activity. -/
def postOperation : String := "agent activity mutation"

/-- The mutation that makes an activity. -/
def postQuery : String :=
  "\nmutation createAgentActivity($input: AgentActivityCreateInput!) \x7b\n" ++
  "  agentActivityCreate(input: $input) \x7b\n    success\n    agentActivity \x7b\n      id\n" ++
  "    \x7d\n  \x7d\n\x7d\n"

/-- The body of the request that makes an activity. -/
def postBody (p : Post) : Bytes :=
  object [member "query" (quote postQuery),
    member "variables" (object [member "input" (object
      [member "agentSessionId" (quote p.sessionId), member "content" p.utterance.json,
        member "id" (ActivityId.ofKey p.key).json])])]

/-- Reads the data of the reply to a post. -/
def postReader : Reader (Option Confirmation) :=
  mutationReader "CreateActivityData" "agentActivityCreate"

/-- Says something on a session. -/
def post (c : Client) (p : Post) : Call String :=
  match p.check with
  | .error e => .done (.error e)
  | .ok () =>
    (c.execute postOperation postReader (postBody p)).bind fun r =>
      .done (r.bind fun data =>
        (data.join.getD {}).id? postOperation "activity")

/-! ### Links -/

/-- The name of the operation that shows links. -/
def linkOperation : String := "agent session mutation"

/-- The mutation that shows links. -/
def linkQuery : String :=
  "\nmutation updateAgentSession($id: String!, $input: AgentSessionUpdateInput!) \x7b\n" ++
  "  agentSessionUpdate(id: $id, input: $input) \x7b\n    success\n    agentSession \x7b\n" ++
  "      id\n    \x7d\n  \x7d\n\x7d\n"

/-- A link in a request; an empty label is left out. -/
def linkJson (u : ExternalUrl) : Bytes :=
  object (unlessEmpty "label" u.label ++ [member "url" (quote u.url)])

/-- The body of the request that shows links. -/
def linkBody (sessionId : String) (urls : List ExternalUrl) : Bytes :=
  object [member "query" (quote linkQuery),
    member "variables" (object [member "id" (quote sessionId),
      member "input" (object [member "externalUrls" (array (urls.map linkJson))])])]

/-- Reads the data of the reply to a link update. -/
def linkReader : Reader (Option Confirmation) :=
  mutationReader "UpdateSessionData" "agentSessionUpdate"

/-- Shows links on a session. Nothing is sent when no link is left to show. -/
def link (c : Client) (u : LinkUpdate) : Call Unit :=
  if Text.isBlankText u.sessionId then .done (.error .sessionIdRequired)
  else match normalizedUrls u.urls with
    | [] => .done (.ok ())
    | urls =>
      (c.execute linkOperation linkReader (linkBody u.sessionId urls)).bind fun r =>
        .done (r.bind fun data =>
          ((data.join.getD {}).id? linkOperation "session").map fun _ => ())

end Client
end AgentRelay.Tracker
