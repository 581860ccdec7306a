import AgentRelay.Deadline.Basic

/-!
# The race between the first thought and the deadline

A race is started once. It ends when it is cancelled, when a thought is observed, or after the
deadline has passed: then the fallback is posted, unless a thought came at the last moment.

Each transition is one function; a transition that does not apply changes nothing.

* `start`, `markObserved` and `wait` are called from outside, at any time.
* `decide`, `recheck`, `posted` and `recorded` are the steps of the race itself; `advance` takes as
  many of them as it can.
-/

namespace AgentRelay.Deadline

/-- How far a race has come. -/
inductive Stage
  | notStarted
  | racing
  /-- The deadline has passed. -/
  | expired
  /-- The fallback is being posted. -/
  | posting
  /-- A violation is being put on record. -/
  | recording (violation : Violation)
  | finished (result : Except DeadlineError Outcome)

/-- A race. -/
structure Race where
  sessionId : String
  /-- The event starts a session, so the deadline counts. -/
  enforced : Bool
  config : DeadlineConfig
  /-- Violations are put on record. -/
  records : Bool
  observed : Bool := false
  stage : Stage := .notStarted

namespace Race

/-- The race for an event. -/
def of? (e : SessionEvent) (config : DeadlineConfig) (records : Bool) : Except DeadlineError Race :=
  if e.isCreated && e.sessionId.isEmpty then .error .missingSessionId
  else .ok { sessionId := e.sessionId, enforced := e.isCreated, config, records }

/-- Starts the race; later starts change nothing. -/
def start (r : Race) : Race :=
  match r.stage with
  | .notStarted =>
    if r.enforced then { r with stage := .racing }
    else { r with stage := .finished (.ok .skipped) }
  | _ => r

/-- A thought has reached the user. -/
def markObserved (r : Race) : Race := { r with observed := true }

/-- Ends the race. -/
def finish (r : Race) (result : Except DeadlineError Outcome) : Race :=
  { r with stage := .finished result }

/-- The race looks at what has happened: it is cancelled, or else a thought was observed, or else
the deadline has passed. -/
def decide (r : Race) (cancelled expired : Bool) : Race :=
  match r.stage with
  | .racing =>
    if cancelled then r.finish (.ok .cancelled)
    else if r.observed then r.finish (.ok .observed)
    else if expired then { r with stage := .expired }
    else r
  | _ => r

/-- After the deadline the race looks again for a thought before it posts the fallback. -/
def recheck (r : Race) : Race :=
  match r.stage with
  | .expired => if r.observed then r.finish (.ok .observed) else { r with stage := .posting }
  | _ => r

/-- The fallback. -/
def fallback (r : Race) : Post where
  sessionId := r.sessionId
  key := fallbackKey r.sessionId
  utterance := .thought r.config.fallbackBody

/-- The fallback was posted, or could not be posted at this time. -/
def posted (r : Race) (now : Instant) (result : Except Failure String) : Race :=
  match r.stage with
  | .posting =>
    match result with
    | .ok id => { r.markObserved with stage := .finished (.ok (.fallbackPosted id)) }
    | .error cause =>
      let v : Violation := ⟨r.sessionId, r.config.deadline, now, cause⟩
      if r.records then { r with stage := .recording v } else r.finish (.error (.violated v))
  | _ => r

/-- The violation was put on record, or could not be. -/
def recorded (r : Race) (result : Except Failure Unit) : Race :=
  match r.stage with
  | .recording v =>
    match result with
    | .ok () => r.finish (.error (.violated v))
    | .error cause => r.finish (.error (.recordFailed v cause))
  | _ => r

/-- Lets a race go on as far as it can: `post` has no answer as long as the post is under way. -/
def advance {m : Type → Type} [Monad m] (r : Race) (cancelled expired : Bool)
    (post : Post → m (Option (Except Failure String))) (now : m Instant)
    (record : Violation → m (Except Failure Unit)) : m Race := do
  let r := (r.decide cancelled expired).recheck
  match r.stage with
  | .posting =>
    match ← post r.fallback with
    | none => return r
    | some result =>
      let r := r.posted (← now) result
      match r.stage with
      | .recording v => return r.recorded (← record v)
      | _ => return r
  | _ => return r

/-- The result of the race, if it has ended. -/
def result? (r : Race) : Option (Except DeadlineError Outcome) :=
  match r.stage with
  | .finished result => some result
  | _ => none

/-- What a call that waits for the result is told: the result, or that the call itself is
cancelled. -/
def wait (r : Race) (cancelled : Bool) : Option (Except DeadlineError Outcome) :=
  match r.result? with
  | some result => some result
  | none => if cancelled then some (.ok .cancelled) else none

end Race
end AgentRelay.Deadline
