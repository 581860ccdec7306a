import AgentRelay.Digest.Sha256
import AgentRelay.Event.Wire
import AgentRelay.Job.Payload

/-!
# Jobs and the work they stand for

A delivery is known by its session step: the session, the action, and what tells two steps of one
action apart. Neither the delivery's own id nor the time of its arrival takes part, so a delivery
that is sent again maps to the same step.

A job is the unit of work that one accepted delivery makes: the event, the body it came in, and the
names under which the work is known.

* `Identity.fingerprint` stands in for an id that the event lacks.
* `Identity.step` names the session step of an event, `Identity.key` puts the name space in front.
* `Job.ofDelivery` makes a job.
* `SessionStep` is what is left of a job for the work on its session.
-/

namespace AgentRelay

/-! ### What makes two deliveries the same work -/

namespace Identity

/-- The first eight bytes of the digest of a payload, in hexadecimal. -/
def fingerprint (payload : Bytes) : String :=
  Bytes.toHex ((Digest.Sha256.digest payload).take 8)

/-- The name of the session: its id, or the fingerprint of the payload. -/
def session (e : SessionEvent) (payload : Bytes) : String :=
  (Text.filled? e.session.id).getD ("session-" ++ fingerprint payload)

/-- What stands for the event: its id, or the fingerprint of the payload. -/
def event (e : SessionEvent) (payload : Bytes) : String :=
  match Text.filled? e.id with
  | some id => "event:" ++ id
  | none => "fingerprint:" ++ fingerprint payload

/-- What tells two prompts of a session apart: the activity, or else the event. -/
def prompt (e : SessionEvent) (payload : Bytes) : String :=
  match e.activity.bind fun a => Text.filled? a.id with
  | some id => id
  | none => event e payload

/-- The name of the session step of an event. -/
def step (e : SessionEvent) (payload : Bytes) : String :=
  match e.action with
  | .known .created => session e payload ++ ":created"
  | .known .prompted => session e payload ++ ":prompted:" ++ prompt e payload
  | .unknown name =>
    session e payload ++ ":" ++ (Text.filled? name).getD "unknown" ++ ":" ++ event e payload

/-- The name space of idempotency keys; its version changes with the format of session steps. -/
def keySpace : String := "agent-session/v1"

/-- The idempotency key of a session step. -/
def key (step : String) : String := keySpace ++ ":" ++ Text.trim step

end Identity

/-! ### Jobs -/

/-- One unit of work. -/
structure Job where
  id : String := ""
  contractVersion : UInt32 := 0
  idempotencyKey : String := ""
  sessionId : String := ""
  sessionStep : String := ""
  /-- The id of the delivery, which takes no part in the identity of the job. -/
  deliveryId : Option String := none
  receivedAt : Instant := .epoch
  event : SessionEvent := {}
  payload : Payload := .null
  deriving DecidableEq, Inhabited

namespace Job

/-- The version of the records that are written. -/
def currentVersion : UInt32 := 1

/-- The job of an event and the body it was read from. A blank delivery id counts as none. -/
def ofDelivery (event : SessionEvent) (body : Bytes) (deliveryId : Option String)
    (receivedAt : Instant) : Except Json.Fault Job :=
  match Payload.ofBody body with
  | .error e => .error e
  | .ok payload =>
    let step := Identity.step event body
    let key := Identity.key step
    .ok { id := (Text.filled? event.id).getD key
          contractVersion := currentVersion
          idempotencyKey := key
          sessionId := event.sessionId
          sessionStep := step
          deliveryId := deliveryId.bind Text.filled?
          receivedAt
          event
          payload }

/-- The trimmed idempotency key, by which repeated jobs are found. -/
def key (j : Job) : String := Text.trim j.idempotencyKey

end Job

/-! ### Steps of a session -/

/-- One unit of work on a session. -/
structure SessionStep where
  sessionId : String
  /-- The front part of the idempotency key of every activity of this step. -/
  baseKey : String
  event : SessionEvent
  /-- The body that the event came in. -/
  payload : Option Payload
  deriving DecidableEq

namespace SessionStep

/-- Stands for a session that has no name. -/
def unknownSession : String := "unknown-session"

/-- The step of a queued job. -/
def ofJob (j : Job) : SessionStep :=
  let sessionId := (Text.firstFilled? [j.sessionId, j.event.sessionId]).getD unknownSession
  { sessionId
    baseKey := (Text.firstFilled? [j.idempotencyKey, j.id, j.sessionStep]).getD sessionId
    event := j.event
    payload := some j.payload }

/-- The step of an event without a job. -/
def ofEvent (e : SessionEvent) (baseKey : String) : SessionStep :=
  let sessionId := (Text.filled? e.sessionId).getD unknownSession
  { sessionId, baseKey := (Text.filled? baseKey).getD sessionId, event := e, payload := none }

/-- The name of the action. -/
def action (s : SessionStep) : String := s.event.action.name

/-- The key of the thought that a step starts with. -/
def thoughtKey (s : SessionStep) : String := s.baseKey ++ ":thought"

/-- The key of the response that a step ends with. -/
def responseKey (s : SessionStep) : String := s.baseKey ++ ":response"

end SessionStep
end AgentRelay
