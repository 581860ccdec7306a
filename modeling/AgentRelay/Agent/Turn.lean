import AgentRelay.Agent.Prompt
import AgentRelay.Script
import AgentRelay.Tracker.Utterance

/-!
# Working on a step

A step starts with a thought, then the agent runs, then links that the run left are shown, and a
response says how it went. Without the thought nothing else happens; the links are best effort.

* `turn` is the whole step. It succeeds when the thought, the run and the response all do.
-/

namespace AgentRelay

/-- What work on a step asks for beside its thought. -/
inductive TurnQuestion
  | runAgent (request : AgentRequest)
  | link (update : LinkUpdate)
  | respond (post : Post)
  deriving DecidableEq

/-- What it is answered. -/
def TurnAnswer : TurnQuestion → Type
  | .runAgent _ => Except Failure AgentOutcome
  | .link _ => Except Tracker.Error Unit
  | .respond _ => Except Tracker.Error String

/-- What a runner asks for: to post a thought, or something of its own. -/
inductive RunnerQuestion (Q : Type)
  | think (post : Post)
  | other (question : Q)
  deriving DecidableEq

/-- What a runner is answered. -/
def RunnerAnswer {Q : Type} (R : Q → Type) : RunnerQuestion Q → Type
  | .think _ => Except Failure String
  | .other q => R q

/-- Work on one step. -/
abbrev Runner {Q : Type} (R : Q → Type) :=
  Script (RunnerQuestion Q) (RunnerAnswer R) (Except Failure Unit)

namespace SessionStep

/-- The thought that work begins with. -/
def startThought (s : SessionStep) : Post := ⟨s.sessionId, s.thoughtKey, .thought s.thoughtBody⟩

/-- What the agent is asked to do. -/
def agentRequest (s : SessionStep) : AgentRequest := ⟨taskId s.baseKey, s.sessionId, s.prompt⟩

/-- The response that says how the run went. -/
def endResponse (s : SessionStep) (failure : Option Failure) : Post :=
  ⟨s.sessionId, s.responseKey, .response (responseBody s.action failure)⟩

end SessionStep

namespace Turn

/-- Why a run failed, if it did. -/
def runFailure? : Except Failure AgentOutcome → Option Failure
  | .ok outcome => outcome.failure?.map .note
  | .error f => some f

/-- The links that a run left. -/
def runUrls : Except Failure AgentOutcome → List ExternalUrl
  | .ok outcome => outcome.urls
  | .error _ => []

/-- The result of a step whose thought was posted. -/
def result (failure : Option Failure) (response : Except Tracker.Error String) :
    Except Failure Unit :=
  match failure, response with
  | none, .ok _ => .ok ()
  | some run, .ok _ => .error (run.context "run linear session job")
  | none, .error e => .error ((Failure.ofTracker e).context "emit linear response activity")
  | some run, .error e =>
    .error (.note
      s!"run linear session job: {run.text}; emit linear response activity: {e.message}")

/-- Says how the run went. -/
def respond (s : SessionStep) (failure : Option Failure) : Runner TurnAnswer :=
  .ask (.other (.respond (s.endResponse failure))) fun (r : Except Tracker.Error String) =>
    .done (result failure r)

/-- Runs the agent, shows its links and says how it went. -/
def execute (s : SessionStep) : Runner TurnAnswer :=
  .ask (.other (.runAgent s.agentRequest)) fun (r : Except Failure AgentOutcome) =>
    match runUrls r with
    | [] => respond s (runFailure? r)
    | urls =>
      .ask (.other (.link ⟨s.sessionId, urls⟩)) fun _ => respond s (runFailure? r)

end Turn

/-- Work on a step. -/
def turn (s : SessionStep) : Runner TurnAnswer :=
  .ask (.think s.startThought) fun (r : Except Failure String) =>
    match r with
    | .ok _ => Turn.execute s
    | .error f => .done (.error (f.context "emit linear thought activity"))

end AgentRelay
