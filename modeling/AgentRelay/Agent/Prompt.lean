import AgentRelay.Diagnosis
import AgentRelay.Job.Basic

/-!
# Requests to the agent and the texts of a step

The agent is given a prompt and works on it. A run that took place has an outcome, good or bad; a
run that could not take place at all is a failure. Before and after it works, something is said on
the session. The prompt of a follow-up is made from what cannot change: no comment takes part in it.

* `AgentRequest` is what the agent is to do, `AgentOutcome` how it ended.
* `SessionStep.prompt` is the prompt of a step.
* `SessionStep.thoughtBody` and `responseBody` are said on the session.
* `taskId` makes a name for a run out of a key.
-/

namespace AgentRelay

/-! ### Runs -/

/-- What the agent is to do. -/
structure AgentRequest where
  /-- The name of the run, also that of its log. -/
  taskId : String
  sessionId : String
  prompt : String
  deriving DecidableEq

/-- How a run ended. -/
structure AgentOutcome where
  failed : Bool := false
  reason : String := ""
  logPath : Option String := none
  urls : List ExternalUrl := []
  deriving DecidableEq

namespace AgentOutcome

/-- A run that did what it should. -/
def completed : AgentOutcome := {}

/-- A run that did not. -/
def failure (reason : String) : AgentOutcome := { failed := true, reason }

/-- Why a run failed, if it did. -/
def failure? (o : AgentOutcome) : Option String :=
  if o.failed then some ((Text.filled? o.reason).getD "agent run failed") else none

end AgentOutcome

/-! ### Texts -/

/-- What the agent is told when there is nothing else to tell. -/
def continueInstruction : String := "Continue handling the Linear AgentSession request."

namespace SessionStep

/-- The context of the session. -/
def contextText (s : SessionStep) : String :=
  match s.event.action with
  | .known .prompted =>
    let rebuilt := s.event.promptContext []
    if Text.isBlankText rebuilt then s.event.session.promptContext else rebuilt
  | _ => s.event.session.promptContext

/-- What the user asked for. -/
def requestParts (s : SessionStep) : List String :=
  match s.event.action with
  | .known .created =>
    match s.event.session.comment.bind fun c => Text.filled? c.body with
    | some body => ["Initial request:\n" ++ body]
    | none => []
  | .known .prompted =>
    (match s.event.activity.bind fun a => Text.filled? a.content.body with
      | some body => ["Follow-up input:\n" ++ body]
      | none => []) ++ [continueInstruction]
  | .unknown _ => []

/-- The body of the event, unless it says nothing. -/
def payloadText? (s : SessionStep) : Option String :=
  s.payload.bind fun p => if p.isNull then none else Text.filled? p.text

/-- The prompt for the agent. -/
def prompt (s : SessionStep) : String :=
  match (Text.filled? s.contextText).toList ++ s.requestParts with
  | [] => s.payloadText?.getD continueInstruction
  | parts => "\n\n".intercalate parts

/-- What is said when work on a step begins. -/
def thoughtBody (s : SessionStep) : String :=
  match s.event.action with
  | .known .created => "Processing queued Linear session request."
  | .known .prompted => "Processing queued follow-up prompt for Linear session."
  | .unknown _ => "Processing queued Linear session step."

end SessionStep

/-- What is said when work on an action has ended. -/
def responseBody (action : String) (failure : Option Failure) : String :=
  let action := (Text.filled? action).getD "queued"
  match failure with
  | none => s!"Finished processing Linear session {action} step."
  | some f => s!"Failed processing Linear session {action} step.\n{Diagnosis.summary f}"

/-- Stands for a run that has no name. -/
def defaultTaskId : String := "linear-session-job"

/-- Characters that separate names in paths and keys. -/
def isSeparator (c : Char) : Bool := c == '/' || c == '\\' || c == ':' || c == ' '

/-- The name of a run: a key with its separators replaced. -/
def taskId (key : String) : String :=
  match Text.filled? key with
  | none => defaultTaskId
  | some key => String.ofList (key.toList.map fun c => if isSeparator c then '_' else c)

end AgentRelay
