import AgentRelay.Queue.Append
import AgentRelay.Queue.Dispatcher

/-!
# The way into the queue

Accepted jobs are kept in memory or in a file. They get there at once, or through the buffer of a
dispatcher whose background task does the writing.

* `Sink.write` is one write.
* `Intake.dispatch` hands a job over, `Intake.settle` lets the background task run, and
  `Intake.close` ends the intake.
-/

namespace AgentRelay

/-- Where jobs are kept. -/
inductive Sink
  | memory (jobs : MemorySink)
  | file (path : String)

/-- A write by a caller that may have been cancelled; no result as long as it waits at a gate. -/
def Sink.write (cancelled : Bool) (j : Job) :
    Sink × Disk → Option (Except SinkError Unit × Sink × Disk)
  | (.memory s, disk) => (s.writeUnless cancelled j).map fun (r, s) => (r, .memory s, disk)
  | (.file path, disk) =>
    let (r, disk) := Queue.appendTo path cancelled j disk
    some (r, .file path, disk)

/-- The jobs that are kept in memory. -/
def Sink.jobs : Sink → List Job
  | .memory s => s.jobs
  | .file _ => []

/-- The way into the queue. -/
structure Intake where
  sink : Sink
  /-- The buffer in front of the sink; without one, jobs are written at once. -/
  dispatcher : Option Dispatcher := none

namespace Intake

/-- Writes to the sink, if it does not wait. -/
def write (cancelled : Bool) (j : Job) (i : Intake) (disk : Disk) :
    Option (Except SinkError Unit) × Intake × Disk :=
  match Sink.write cancelled j (i.sink, disk) with
  | some (r, sink, disk) => (some r, { i with sink }, disk)
  | none => (none, i, disk)

/-- Hands a job over; there is no answer as long as the sink waits. -/
def dispatch (cancelled : Bool) (j : Job) (i : Intake) (disk : Disk) :
    Option (Except DispatchError Unit) × Intake × Disk :=
  match i.dispatcher with
  | some d =>
    let (r, d) := d.dispatch cancelled j
    (some r, { i with dispatcher := some d }, disk)
  | none =>
    match Dispatcher.writeThrough (Sink.write false) cancelled j (i.sink, disk) with
    | some (r, sink, disk) => (some r, { i with sink }, disk)
    | none => (none, i, disk)

/-- The background task runs until it has nothing to do or the sink waits. -/
def settle (i : Intake) (disk : Disk) : Intake × Disk :=
  match i.dispatcher with
  | some d =>
    let (d, sink, disk) := d.drain (Sink.write false) (i.sink, disk)
    (⟨sink, some d⟩, disk)
  | none => (i, disk)

/-- One call that closes the dispatcher and waits for the last write. It looks before the background
task can have noticed that nothing more comes, and again when that task has run; there is no answer as
long as the sink waits. -/
def close (cancelled : Bool) (i : Intake) (disk : Disk) :
    Option (Except DispatchError Unit) × Intake × Disk :=
  let look (i : Intake) (cancelled : Bool) : Option (Except DispatchError Unit) :=
    i.dispatcher.bind fun d => ((⟨false, [0]⟩ : Dispatcher.Closers).poll d 0 cancelled).map (·.1)
  let first := look i cancelled
  let (i, disk) := { i with dispatcher := i.dispatcher.map Dispatcher.beginClose }.settle disk
  (first <|> look i false, i, disk)

end Intake
end AgentRelay
