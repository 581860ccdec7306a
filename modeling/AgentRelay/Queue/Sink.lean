import AgentRelay.Job.Line
import AgentRelay.Storage.OsError

/-!
# Where accepted jobs go

A sink keeps jobs. A dispatcher hands jobs to a sink, at once or by way of a buffer.

* `SinkError` and `DispatchError` are the ways in which that fails.
* `MemorySink` keeps jobs in memory; it can be made to wait or to fail.
-/

namespace AgentRelay

/-- Why a job was not kept. -/
inductive SinkError
  | storage (error : OsError)
  | cancelled
  deriving DecidableEq

/-- The wording of a failure to keep a job. -/
def SinkError.message : SinkError → String
  | .storage error => "queue io: " ++ error.message
  | .cancelled => "enqueue cancelled"

/-- Why a job was not handed over. -/
inductive DispatchError
  /-- The buffer holds as many jobs as it may. -/
  | queueFull
  | closed
  | cancelled
  | timedOut
  | sink (error : SinkError)
  deriving DecidableEq

namespace DispatchError

/-- The wording of a failure to hand a job over. -/
def message : DispatchError → String
  | queueFull => "dispatch queue is full"
  | closed => "dispatcher is closed"
  | cancelled => "dispatch cancelled"
  | timedOut => "dispatch timed out"
  | sink error => "dispatch sink: " ++ error.message

/-- The same job may be accepted later. -/
def isTransient : DispatchError → Bool
  | sink _ => false
  | _ => true

end DispatchError

/-- Keeps jobs in memory. -/
structure MemorySink where
  jobs : List Job := []
  /-- How many more writes may go through; any number when there is no gate. -/
  permits : Option Nat := none
  /-- Every write fails. -/
  fails : Bool := false

namespace MemorySink

/-- Lets `n` more writes through the gate. -/
def release (s : MemorySink) (n : Nat) : MemorySink := { s with permits := s.permits.map (· + n) }

/-- A write that is past the gate. -/
def accept (s : MemorySink) (j : Job) : Except SinkError Unit × MemorySink :=
  if s.fails then (.error (.storage (.other "in-memory sink failure")), s)
  else (.ok (), { s with jobs := s.jobs ++ [j] })

/-- A write; there is no result as long as it waits at the gate. -/
def write (j : Job) (s : MemorySink) : Option (Except SinkError Unit × MemorySink) :=
  match s.permits with
  | none => some (accept s j)
  | some 0 => none
  | some (n + 1) => some (accept { s with permits := some n } j)

/-- A write by a caller that gives up instead of waiting, when it is cancelled. -/
def writeUnless (cancelled : Bool) (j : Job) (s : MemorySink) :
    Option (Except SinkError Unit × MemorySink) :=
  match s.write j with
  | some r => some r
  | none => if cancelled then some (.error .cancelled, s) else none

end MemorySink
end AgentRelay
