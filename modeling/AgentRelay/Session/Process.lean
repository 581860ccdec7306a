import AgentRelay.Agent.Turn
import AgentRelay.Deadline.Race

/-!
# Processing a step of a session

A step that creates a session is worked on while the deadline for its first thought is watched; a
step that prompts a session is just worked on. Other steps are refused.

* `Live` is a created step under way: the runner and the race side by side. `Live.answered` is
  a move of the runner, `Live.watched` one of the race; they may alternate in any order.
* `SessionError` says what can go wrong, `Live.result?` puts the two results together.
* `Session.Surroundings.process` processes a step in a monad: the runner first, and then, unless a
  thought was observed, the race goes on to its end. This is the order of events whenever the
  runner needs less time than the deadline grants.
-/

namespace AgentRelay

/-- Why a step failed. -/
inductive SessionError
  | unsupportedAction (name : String)
  | deadline (error : DeadlineError)
  | created (run : Failure)
  | prompted (run : Failure)
  | combined (run : Failure) (error : DeadlineError)
  deriving DecidableEq

namespace SessionError

/-- The wording of a failure. -/
def message : SessionError → String
  | unsupportedAction name => "unsupported agent session event action " ++ Text.quoted name
  | deadline e => e.message
  | created run => "created event run failed: " ++ run.text
  | prompted run => "prompted event run failed: " ++ run.text
  | combined run e => s!"created event run failed: {run.text}; first-thought SLA failed: {e.message}"

/-- The failure as a chain of causes: its wording alone. -/
def failure (e : SessionError) : Failure := .note e.message

end SessionError

/-- How the two parts of a created step make one result. -/
def joinResults (run : Except Failure Unit) (watch : Except DeadlineError Deadline.Outcome) :
    Except SessionError Unit :=
  match run, watch with
  | .ok (), .ok _ => .ok ()
  | .error f, .ok _ => .error (.created f)
  | .ok (), .error e => .error (.deadline e)
  | .error f, .error e => .error (.combined f e)

/-- A created step under way. -/
structure Live {Q : Type} (R : Q → Type) where
  race : Deadline.Race
  runner : Runner R

namespace Live

variable {Q : Type} {R : Q → Type}

/-- Starts the race and the runner. -/
def start (race : Deadline.Race) (runner : Runner R) : Live R := ⟨race.start, runner⟩

/-- A posted thought counts as the first thought of the session. -/
def observe (race : Deadline.Race) : (q : RunnerQuestion Q) → RunnerAnswer R q → Deadline.Race
  | .think _, r =>
    match (r : Except Failure String) with
    | .ok _ => race.markObserved
    | .error _ => race
  | .other _, _ => race

/-- The runner's question is answered. -/
def answered (l : Live R) (q : RunnerQuestion Q) (next : RunnerAnswer R q → Runner R)
    (r : RunnerAnswer R q) : Live R := ⟨observe l.race q r, next r⟩

/-- The race moves. -/
def watched (l : Live R) (move : Deadline.Race → Deadline.Race) : Live R :=
  { l with race := move l.race }

/-- The result of the step: the runner must be done, and the race must have ended unless the
caller is cancelled. -/
def result? (l : Live R) (cancelled : Bool) : Option (Except SessionError Unit) :=
  match l.runner with
  | .ask _ _ => none
  | .done run => (l.race.wait cancelled).map (joinResults run)

end Live

/-- What becomes of a step. -/
inductive Route (α : Type)
  /-- Work on it under the watch of a race. -/
  | watch (live : α)
  /-- Work on it. -/
  | work
  | refuse (error : SessionError)

/-- What becomes of the step of an event. -/
def SessionStep.route (s : SessionStep) (config : DeadlineConfig) (records : Bool) :
    Route Deadline.Race :=
  match s.event.action with
  | .known .created =>
    match Deadline.Race.of? s.event config records with
    | .ok race => .watch race
    | .error e => .refuse (.deadline e)
  | .known .prompted => .work
  | .unknown name => .refuse (.unsupportedAction name)

/-! ### When the work is quick -/

namespace Session

/-- What processing needs. -/
structure Surroundings (m : Type → Type) {Q : Type} (R : Q → Type) where
  think : Post → m (Except Failure String)
  /-- Puts a violation on record, where that is wanted. -/
  record : Option (Violation → m (Except Failure Unit))
  other : (q : Q) → m (R q)
  /-- Waits for the deadline: has it passed, or was the caller cancelled? -/
  deadlinePasses : Span → m Bool
  now : m Instant

namespace Surroundings

variable {m : Type → Type} [Monad m] {Q : Type} {R : Q → Type}

/-- Answers a runner. -/
def answer (s : Surroundings m R) : (q : RunnerQuestion Q) → m (RunnerAnswer R q)
  | .think p => s.think p
  | .other q => s.other q

/-- Runs the runner of a created step to its end; the race sees its thoughts. -/
def runWatched (s : Surroundings m R) (race : Deadline.Race) :
    Runner R → m (Except Failure Unit × Deadline.Race)
  | .done r => pure (r, race)
  | .ask q next => do
    let r ← s.answer q
    s.runWatched (Live.observe race q r) (next r)

/-- The race goes on to its end. -/
def finishRace (s : Surroundings m R) (race : Deadline.Race) : m Deadline.Race := do
  let advance (race : Deadline.Race) (cancelled expired : Bool) : m Deadline.Race :=
    race.advance cancelled expired (fun p => return some (← s.think p)) s.now
      fun v => s.record.elim (pure (.ok ())) fun record => record v
  let race ← advance race false false
  match race.stage with
  | .racing =>
    let passes ← s.deadlinePasses race.config.deadline
    advance race (!passes) passes
  | _ => return race

/-- Processes a step. -/
def process (s : Surroundings m R) (config : DeadlineConfig) (runner : SessionStep → Runner R)
    (step : SessionStep) : m (Except SessionError Unit) := do
  match step.route config s.record.isSome with
  | .refuse e => return .error e
  | .work => return (← (runner step).run s.answer).mapError .prompted
  | .watch race =>
    let (run, race) ← s.runWatched race.start (runner step)
    let race ← s.finishRace race
    return match race.result? with
      | some result => joinResults run result
      | none => joinResults run (.ok .cancelled)

end Surroundings

end Session
end AgentRelay
