import AgentRelay.Event.Rules
import AgentRelay.Job.Basic
import AgentRelay.Queue.Sink
import AgentRelay.Script
import AgentRelay.Text.LowerCase

/-!
# Receiving deliveries

A delivery is checked in a fixed order: its method, its body, the event in it, and whether there is
a dispatcher. Only then is a job handed to the dispatcher, and the answer says whether it was taken.

What is known of a delivery beside its body is the id that the sender gave it and the time at which
it arrived. Neither takes part in the identity of the work. The path for deliveries may be a pattern:
a colon and a name stand for the text up to the next slash, an asterisk and a name at the end for all
the text that is left, and every other character stands for itself.

* `Delivery.of` makes a delivery, `Delivery.idOf` finds its id in the headers.
* `Route.ofPattern` reads a pattern, `Route.accepts` says which paths it stands for.
* `receive` answers a delivery.
* `respond` answers any request, also one for the health of the service.
-/

namespace AgentRelay

/-! ### Deliveries -/

/-- One delivery. -/
structure Delivery where
  id : Option String
  receivedAt : Instant
  deriving DecidableEq

namespace Delivery

/-- A delivery; a blank id counts as none. -/
def of (id : Option String) (receivedAt : Instant) : Delivery := ⟨id.bind Text.filled?, receivedAt⟩

/-- The header that holds the id of a delivery. -/
def idHeader : String := "x-linear-delivery-id"

/-- The text of a header, unless it holds bytes that are not visible ASCII. -/
def headerText? (value : Bytes) : Option String :=
  if value.all fun b => b == 9 || (32 ≤ b && b < 127) then Bytes.ofUtf8? value else none

/-- The id in the headers of a request: the first header of that name counts. -/
def idOf (headers : List (String × Bytes)) : Option String :=
  (headers.find? fun h => Text.lowerAscii h.1 == idHeader).bind fun h => headerText? h.2

end Delivery

namespace Webhook

/-! ### Routes -/

/-- A piece of a pattern. -/
inductive RoutePiece
  | char (c : Char)
  /-- The text up to the next slash. -/
  | segment
  /-- All the text that is left. -/
  | rest
  deriving DecidableEq

/-- The pieces of a pattern, in order. -/
abbrev Route := List RoutePiece

namespace Route

/-- Reads a pattern; at first, a name may have to be passed over, up to the next slash. -/
def ofChars (inName : Bool) : List Char → Route
  | [] => []
  | c :: cs =>
    if inName && c ≠ '/' then ofChars true cs
    else if c = ':' then .segment :: ofChars true cs
    else if c = '*' then [.rest]
    else .char c :: ofChars false cs

/-- Reads a pattern. -/
def ofPattern (pattern : String) : Route := ofChars false pattern.toList

/-- Whether a route stands for a path. Something must be left of the path for a segment and for the
rest, but a segment may be empty where a slash follows. -/
def accepts : Route → List Char → Bool
  | [], path => path.isEmpty
  | .rest :: _, path => !path.isEmpty
  | .segment :: pieces, path => !path.isEmpty && accepts pieces (path.dropWhile (· ≠ '/'))
  | .char _ :: _, [] => false
  | .char c :: pieces, d :: path => c = d && accepts pieces path

end Route

/-! ### Requests and answers -/

open Json

/-- How deliveries are received. -/
structure Config where
  /-- The pattern of the paths for deliveries. -/
  path : String := "/linear/webhook"
  maxBodyBytes : Nat := 1048576
  /-- The longest that a dispatcher may take. -/
  dispatchTimeout : Span := .ofSeconds 5
  deriving DecidableEq

/-- The body of a request. -/
inductive Body
  | received (bytes : Bytes)
  /-- The body could not be read to its end. -/
  | broken (reason : String)
  deriving DecidableEq

/-- A request. -/
structure Request where
  method : String
  target : String
  headers : List (String × Bytes)
  body : Body
  deriving DecidableEq

/-- An answer. -/
structure Response where
  status : Nat
  /-- The methods that are allowed. -/
  allow : Option String := none
  contentType : Option String := none
  body : Bytes := []
  deriving DecidableEq

/-- An answer with a JSON body. -/
def Response.json (status : Nat) (members : List Bytes) : Response :=
  { status, contentType := some "application/json", body := object members }

/-- A refusal: its code and its wording. -/
def Response.refusal (status : Nat) (code message : String) : Response :=
  .json status [member "error" (quote code), member "message" (quote message)]

/-! ### Refusals -/

/-- The answer to another method than `POST`. -/
def methodRefusal : Response :=
  { Response.refusal 405 "method_not_allowed" "only POST is accepted" with allow := some "POST" }

/-- What is said when the body of a request cannot be had. -/
def bufferFailure (reason : String) : String := "Failed to buffer the request body: " ++ reason

/-- The body of a request, if it can be read and is not too long. -/
def bodyOf (config : Config) : Body → Except Response Bytes
  | .broken reason => .error (.refusal 400 "unreadable_body" (bufferFailure reason))
  | .received bytes =>
    if config.maxBodyBytes < bytes.length then
      .error (.refusal 413 "payload_too_large" (bufferFailure "length limit exceeded"))
    else .ok bytes

/-- The job in a body. -/
def jobOf (delivery : Delivery) (bytes : Bytes) : Except Response Job :=
  match SessionEvent.decode bytes with
  | .error e => .error (.refusal 400 "invalid_event" e.message)
  | .ok event =>
    (Job.ofDelivery event bytes delivery.id delivery.receivedAt).mapError fun e =>
      .refusal 400 "invalid_event" e.message

/-- The answer when no dispatcher is there. -/
def noDispatcher : Response :=
  .refusal 503 "dispatcher_unavailable" "webhook dispatcher is not configured"

/-- The answer when the dispatcher did not take the job. -/
def dispatchRefusal (e : DispatchError) : Response :=
  match e with
  | .queueFull => .refusal 503 "queue_full" e.message
  | .closed => .refusal 503 "dispatcher_closed" e.message
  | .cancelled | .timedOut => .refusal 503 "dispatch_unavailable" e.message
  | .sink _ => .refusal 500 "queue_write_failed" e.message

/-- The answer when the dispatcher took the job. -/
def accepted (j : Job) : Response :=
  .json 202 [member "status" (quote "accepted"), member "jobId" (quote j.id)]

/-! ### Answering -/

/-- What receiving asks: to hand a job over. -/
inductive Question
  | dispatch (job : Job)
  deriving DecidableEq

/-- What it is answered; nothing, when the dispatcher takes too long. -/
def Answer (_ : Question) : Type := Option (Except DispatchError Unit)

/-- The result of handing a job over. -/
def handedOver (r : Option (Except DispatchError Unit)) : Except DispatchError Unit :=
  r.getD (.error .timedOut)

/-- Answers a delivery. -/
def receive (config : Config) (hasDispatcher : Bool) (delivery : Delivery) (method : String)
    (body : Body) : Script Question Answer Response :=
  if method ≠ "POST" then .done methodRefusal
  else match bodyOf config body with
    | .error r => .done r
    | .ok bytes =>
      match jobOf delivery bytes with
      | .error r => .done r
      | .ok j =>
        if !hasDispatcher then .done noDispatcher
        else .ask (.dispatch j) fun (r : Option (Except DispatchError Unit)) =>
          .done (match handedOver r with
            | .ok () => accepted j
            | .error e => dispatchRefusal e)

/-- The path of the health of the service. -/
def healthPath : String := "/health"

/-- The methods by which the health of the service is asked for. -/
def isHealthMethod (method : String) : Bool := method == "GET" || method == "HEAD"

/-- The answer to a request for the health of the service. -/
def health (method : String) : Response :=
  if isHealthMethod method then { status := 200 }
  else { status := 405, allow := some "GET,HEAD" }

/-- A target without the scheme and the server that may stand in front of its path. -/
def dropServer (target : List Char) : List Char :=
  if target.head? == some '/' then target
  else
    match target.dropWhile (· != ':') with
    | ':' :: '/' :: '/' :: cs =>
      match cs.dropWhile (· != '/') with
      | [] => ['/']
      | path => path
    | _ => target

/-- The path that a request asks for. -/
def pathOf (target : String) : String :=
  String.ofList (dropServer (target.toList.takeWhile fun c => c != '?' && c != '#'))

/-- Whether a request is about the health of the service. When deliveries are expected on the same path,
only the methods by which it is asked for are. -/
def isAboutHealth (config : Config) (r : Request) : Bool :=
  pathOf r.target == healthPath && (config.path != healthPath || isHealthMethod r.method)

/-- Where a request goes. -/
inductive Destination
  | health
  | deliveries
  | nowhere
  deriving DecidableEq

/-- Where a request goes. -/
def destination (config : Config) (r : Request) : Destination :=
  if isAboutHealth config r then .health
  else if (Route.ofPattern config.path).accepts (pathOf r.target).toList then .deliveries
  else .nowhere

/-- Answers a request that arrived at a time. -/
def respond (config : Config) (hasDispatcher : Bool) (now : Instant) (r : Request) :
    Script Question Answer Response :=
  match destination config r with
  | .health => .done (health r.method)
  | .deliveries => receive config hasDispatcher (.of (Delivery.idOf r.headers) now) r.method r.body
  | .nowhere => .done { status := 404 }

end Webhook
end AgentRelay
