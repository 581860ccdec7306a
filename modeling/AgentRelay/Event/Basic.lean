import AgentRelay.Event.Kinds
import AgentRelay.Text.Blank
import AgentRelay.Time.Instant

/-!
# Agent-session events

What the tracker tells about a session: the event itself, the session with what hangs on it, and
the activity that caused the event. Every part may be missing on the wire and then has its
default value.

* `SessionEvent.promptContext` is the context that an agent is prompted with. It is rebuilt from
  what cannot change: the prompt context of the session, the activities before the event, and the
  event's own activity. Comments may be edited later and are left out.
-/

namespace AgentRelay

/-- A link that the tracker shows on a session. -/
structure ExternalUrl where
  label : String := ""
  url : String := ""
  deriving DecidableEq, Inhabited

/-- The issue a session belongs to. -/
structure Issue where
  id : String := ""
  identifier : String := ""
  title : String := ""
  deriving DecidableEq, Inhabited

/-- A comment, which may be edited after the fact. -/
structure Comment where
  id : String := ""
  body : String := ""
  deriving DecidableEq, Inhabited

/-- Standing instructions for the agent. -/
structure Guidance where
  body : String := ""
  deriving DecidableEq, Inhabited

/-- What an activity says. An action has a label and a parameter, all other kinds have a body. -/
structure Content where
  kind : ContentKind := .unknown ""
  body : String := ""
  action : String := ""
  parameter : String := ""
  result : Option String := none
  deriving DecidableEq, Inhabited

/-- An utterance on a session, which never changes. -/
structure Activity where
  id : String := ""
  content : Content := {}
  deriving DecidableEq, Inhabited

/-- A session as the tracker describes it. -/
structure Session where
  id : String := ""
  state : SessionState := .unknown ""
  promptContext : String := ""
  externalUrls : List ExternalUrl := []
  issue : Option Issue := none
  comment : Option Comment := none
  guidance : Option Guidance := none
  deriving DecidableEq, Inhabited

/-- A notification about a session. -/
structure SessionEvent where
  id : String := ""
  kind : String := ""
  action : EventAction := .unknown ""
  createdAt : Option Instant := none
  payloadVersion : Int64 := 0
  session : Session := {}
  activity : Option Activity := none
  previousComments : List Comment := []
  deriving DecidableEq, Inhabited

namespace Content

/-- What an activity of this content contributes: nothing when its text is blank, and nothing for
an action without label or parameter. -/
def line? (c : Content) : Option String :=
  match c.kind with
  | .known .action =>
    match Text.filled? c.action, Text.filled? c.parameter with
    | some action, some parameter =>
      let line := s!"action: {action} | parameter: {parameter}"
      match c.result.bind Text.filled? with
      | some result => some (line ++ s!" | result: {result}")
      | none => some line
    | _, _ => none
  | kind => (Text.filled? c.body).map fun body => kind.name ++ ": " ++ body

end Content

namespace SessionEvent

/-- The trimmed id of the session, empty when it has none. -/
def sessionId (e : SessionEvent) : String := Text.trim e.session.id

/-- A session was created. -/
def isCreated (e : SessionEvent) : Bool := e.action == .known .created

/-- A session was prompted. -/
def isPrompted (e : SessionEvent) : Bool := e.action == .known .prompted

/-- The lines of the activities that are replayed, in order. -/
def replayed (e : SessionEvent) (prior : List Activity) : List String :=
  (prior ++ e.activity.toList).filterMap fun a => a.content.line?

/-- Lines with their numbers in front, counted from `n`. -/
def numbered (n : Nat) : List String → List String
  | [] => []
  | line :: lines => (toString n ++ ". " ++ line) :: numbered (n + 1) lines

/-- The context of the turn that an event starts. -/
def promptContext (e : SessionEvent) (prior : List Activity) : String :=
  let base := Text.trim e.session.promptContext
  match e.replayed prior with
  | [] => base
  | lines =>
    "\n".intercalate ((if base.isEmpty then [] else [base]) ++
      "Conversation activities:" :: numbered 1 lines)

end SessionEvent
end AgentRelay
