import AgentRelay.Agent.Command
import AgentRelay.Queue.Dispatcher
import AgentRelay.Queue.Worker
import AgentRelay.Session.Process
import AgentRelay.Settings.Basic
import AgentRelay.Tracker.Client
import AgentRelay.Webhook.Receive

/-!
# The service

The parts put together: settings become a client of the tracker, a runner for the agent and a
queue worker, and each job of the queue is processed as a step of its session.

* `Settings.client`, `Settings.commandRunner` and the like make the parts.
* `process` is what the worker does with a job.
* `run` makes the parts and works on the queue, `runWith` works on it with given parts.
-/

namespace AgentRelay

/-- The wording and kind of refused settings. -/
def SettingsError.failure (e : SettingsError) : Failure :=
  match e with
  | .missingToken => ⟨.missingToken e.message, []⟩
  | _ => .note e.message

namespace Settings

/-- What the queue worker is told. -/
def workerConfig (s : Settings) : WorkerConfig :=
  { queuePath := s.queuePath, pollInterval := s.pollInterval, once := s.once }

/-- The dispatcher in front of the queue. -/
def dispatcher (s : Settings) : Dispatcher := .ofCapacity s.dispatchCapacity

/-- How deliveries are received. -/
def webhookConfig (s : Settings) : Webhook.Config :=
  { path := s.webhookPath, maxBodyBytes := s.maxBodyBytes }

/-- The deadline for first thoughts. -/
def deadlineConfig (s : Settings) : DeadlineConfig := ({} : DeadlineConfig).withDeadline s.firstThought

/-- The endpoint and the token of the tracker. -/
def trackerAccess (s : Settings) : Except SettingsError (String × String) :=
  match s.token with
  | none => .error .missingToken
  | some token => .ok (s.endpoint, token)

/-- The client of the tracker. -/
def client (s : Settings) : Except Failure Tracker.Client := do
  let (endpoint, token) ← s.trackerAccess.mapError SettingsError.failure
  (Tracker.Client.of? endpoint token).mapError fun e =>
    (Failure.ofTracker e).context "configure activity client"

/-- The runner for the agent. -/
def commandRunner (s : Settings) : Except Failure CommandRunner := do
  let runner ← (CommandRunner.of? s.agentCommand).mapError fun e =>
    e.failure.context "configure agent command"
  let runner := { runner with logDir := some s.logDir }
  return match s.agentTimeout with
    | some limit => runner.withTimeout limit
    | none => runner

end Settings

namespace Service

variable {m : Type → Type} [Monad m]

/-- Access to the tracker and to an agent. -/
structure Parts (m : Type → Type) where
  post : Post → m (Except Tracker.Error String)
  link : LinkUpdate → m (Except Tracker.Error Unit)
  runAgent : AgentRequest → m (Except Failure AgentOutcome)
  deadlinePasses : Span → m Bool
  now : m Instant

/-- A failed call as the failure of a step. -/
def asFailure {α : Type} (r : Except Tracker.Error α) : Except Failure α :=
  r.mapError Failure.ofTracker

/-- What processing needs, made of the parts; violations go on record as responses. -/
def Parts.surroundings (p : Parts m) : Session.Surroundings m TurnAnswer where
  think post := do return asFailure (← p.post post)
  record := some fun v => do return (asFailure (← p.post (Deadline.recordPost v))).map fun _ => ()
  other
    | .runAgent request => p.runAgent request
    | .link update => p.link update
    | .respond post => p.post post
  deadlinePasses := p.deadlinePasses
  now := p.now

/-- Processes a job. -/
def process (p : Parts m) (config : DeadlineConfig) (j : Job) : m (Except Failure Unit) := do
  let r ← p.surroundings.process config turn (SessionStep.ofJob j)
  return r.mapError SessionError.failure

/-- Starts a queue worker and runs it: at most `cycles` cycles with at most `n` turns each. -/
def work (config : WorkerConfig) (n cycles : Nat) : WorkerScript (Except Failure Unit) :=
  (Worker.start config).bind fun r =>
    match r with
    | .error e => .done (.error e.failure)
    | .ok worker =>
      (worker.run n cycles).bind fun d =>
        .done (match d.outcome with
          | some (.error e) => .error e.failure
          | _ => .ok ())

/-- What the service meets outside, beside files. -/
structure Surroundings (m : Type → Type) where
  tracker : (q : Tracker.Question) → m (Tracker.Answer q)
  command : (q : CommandQuestion) → m (CommandAnswer q)
  isCancelled : m Bool
  /-- Waits before the queue is looked at again: is the worker to stop? -/
  pause : m Bool
  deadlinePasses : Span → m Bool
  now : m Instant

/-- The parts that go through a client of the tracker and run a command. -/
def Parts.of (s : Surroundings m) (client : Tracker.Client) (runner : CommandRunner) : Parts m where
  post p := (client.post p).run s.tracker
  link u := (client.link u).run s.tracker
  runAgent r := do return (← (runner.run r).run s.command).mapError CommandError.failure
  deadlinePasses := s.deadlinePasses
  now := s.now

/-- Works on the queue with these parts; the cursor is a file beside the queue. -/
def runWith [MonadStateOf Disk m] (settings : Settings) (p : Parts m) (isCancelled pause : m Bool)
    (n cycles : Nat) : m (Except Failure Unit) :=
  (work settings.workerConfig n cycles).run (Worker.onDisk
    { cursor := .file (Cursor.pathFor settings.queuePath)
      isCancelled
      process := process p settings.deadlineConfig
      pause })

/-- Makes the parts that the settings ask for, and works on the queue. -/
def run [MonadStateOf Disk m] (settings : Settings) (s : Surroundings m) (n cycles : Nat) :
    m (Except Failure Unit) :=
  match settings.client with
  | .error f => return .error f
  | .ok client =>
    match settings.commandRunner with
    | .error f => return .error f
    | .ok runner => runWith settings (.of s client runner) s.isCancelled s.pause n cycles

end Service
end AgentRelay
