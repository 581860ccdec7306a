import AgentRelay.Failure
import AgentRelay.Time.Instant
import AgentRelay.Tracker.Utterance

/-!
# The deadline for the first thought

Somebody who creates a session shall see a first thought on it within a deadline. When the deadline
passes without one, a fallback thought is posted; when that fails too, the deadline is violated,
and the violation is put on record.
-/

namespace AgentRelay

/-- The deadline and what is posted when it passes. -/
structure DeadlineConfig where
  deadline : Span := .ofSeconds 10
  fallbackBody : String := "Processing started."
  deriving DecidableEq

namespace DeadlineConfig

/-- Another deadline; no time at all keeps the old one. -/
def withDeadline (c : DeadlineConfig) (deadline : Span) : DeadlineConfig :=
  if deadline.isZero then c else { c with deadline }

/-- Another fallback; a blank one keeps the old one. -/
def withFallbackBody (c : DeadlineConfig) (body : String) : DeadlineConfig :=
  { c with fallbackBody := (Text.filled? body).getD c.fallbackBody }

end DeadlineConfig

/-- A deadline that passed without any thought. -/
structure Violation where
  sessionId : String
  deadline : Span
  occurredAt : Instant
  /-- Why the fallback could not be posted. -/
  cause : Failure
  deriving DecidableEq

/-- The wording of a violation. -/
def Violation.message (v : Violation) : String :=
  s!"first thought SLA violated for session {v.sessionId} after {v.deadline.text}: {v.cause.text}"

/-- Why a deadline could not be enforced. -/
inductive DeadlineError
  | missingSessionId
  | violated (violation : Violation)
  /-- The violation could not be put on record either. -/
  | recordFailed (violation : Violation) (cause : Failure)
  deriving DecidableEq

namespace DeadlineError

/-- The wording of a failure. -/
def message : DeadlineError → String
  | missingSessionId => "created event agent session id is required"
  | violated v => v.message
  | recordFailed v cause => s!"{v.message}: record explicit SLA error: {cause.text}"

/-- The violation behind a failure. -/
def violation? : DeadlineError → Option Violation
  | missingSessionId => none
  | violated v | recordFailed v _ => some v

end DeadlineError

namespace Deadline

/-- How the watch over a deadline ends when nothing fails. -/
inductive Outcome
  /-- The event does not start a session. -/
  | skipped
  | cancelled
  /-- A first thought came in time. -/
  | observed
  | fallbackPosted (activityId : String)
  deriving DecidableEq

/-- The idempotency key of the fallback, the same for every attempt on a session. -/
def fallbackKey (sessionId : String) : String := Text.trim sessionId ++ ":thought:first-sla-fallback"

/-- The post that puts a violation on record. -/
def recordPost (v : Violation) : Post where
  sessionId := v.sessionId
  key := v.sessionId ++ ":response:first-sla-error"
  utterance := .response v.message

end Deadline
end AgentRelay
