import AgentRelay.Event.Wire

/-!
# Which events are accepted

An event is accepted when its version, its names and the content of its activity are all in order.
The rules are asked in a fixed order and the first one that is broken is reported.

* `Content.check` holds the rules for content, which outgoing activities obey too.
* `SessionEvent.check` holds the rules for events, `SessionEvent.decode` reads and checks.
-/

namespace AgentRelay

/-- Why the content of an activity is refused. -/
inductive ContentError
  | bodyRequired
  | actionLabelRequired
  | actionParameterRequired
  | unknownKind (name : String)
  deriving DecidableEq

/-- The wording of a refusal. -/
def ContentError.message : ContentError → String
  | .bodyRequired => "activity body is required"
  | .actionLabelRequired => "action label is required"
  | .actionParameterRequired => "action parameter is required"
  | .unknownKind name => "unknown agent activity content type: " ++ Text.quoted name

/-- Why an event is refused. -/
inductive EventError
  | decode (fault : Json.Fault)
  | unsupportedVersion (found : Int64)
  | unknownAction (name : String)
  | unknownState (name : String)
  /-- A prompted event without a prompt among its activity. -/
  | promptRequired
  | content (error : ContentError)
  deriving DecidableEq

/-- The wording of a refusal. -/
def EventError.message : EventError → String
  | .decode fault => "decode agent session event: " ++ fault.message
  | .unsupportedVersion found =>
    "unsupported agent session event payloadVersion: " ++ toString found.toInt
  | .unknownAction name => "unknown agent session event action: " ++ Text.quoted name
  | .unknownState name => "unknown agent session state: " ++ Text.quoted name
  | .promptRequired => "prompted agent session event requires prompt agentActivity"
  | .content error => error.message

/-- An action needs a label and a parameter, every other known kind a body. -/
def Content.check (c : Content) : Except ContentError Unit :=
  match c.kind with
  | .known .action =>
    if Text.isBlankText c.action then .error .actionLabelRequired
    else if Text.isBlankText c.parameter then .error .actionParameterRequired
    else .ok ()
  | .unknown name => .error (.unknownKind name)
  | _ => if Text.isBlankText c.body then .error .bodyRequired else .ok ()

/-- The version of events that is understood. -/
def payloadVersion : Int64 := 1

namespace SessionEvent

/-- The event's activity is a prompt. -/
def hasPrompt (e : SessionEvent) : Bool :=
  match e.activity with
  | some a => a.content.kind == .known .prompt
  | none => false

/-- The rules for events. -/
def check (e : SessionEvent) : Except EventError Unit :=
  if e.payloadVersion ≠ AgentRelay.payloadVersion then .error (.unsupportedVersion e.payloadVersion)
  else if !e.action.isKnown then .error (.unknownAction e.action.name)
  else if !e.session.state.isKnown then .error (.unknownState e.session.state.name)
  else if e.isPrompted && !e.hasPrompt then .error .promptRequired
  else match e.activity with
    | none => .ok ()
    | some a => a.content.check.mapError .content

/-- Reads a body as an event and checks it. -/
def decode (body : Bytes) : Except EventError SessionEvent :=
  match Json.readAll reader body with
  | .error fault => .error (.decode fault)
  | .ok e =>
    match e.check with
    | .error error => .error error
    | .ok () => .ok e

end SessionEvent
end AgentRelay
