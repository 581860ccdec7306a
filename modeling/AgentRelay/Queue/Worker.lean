import AgentRelay.Failure
import AgentRelay.Queue.Cursor

/-!
# The queue worker

The worker reads the queue file from its offset on, line by line, and has each job processed. After
every line that needs no further work it saves the offset behind that line, so that a later worker
goes on from there. A line without its line feed is still being written and is left alone.

* `Worker.start` makes a worker that goes on from the saved offset.
* `Drain.begin` looks at the file, `Drain.turn` takes one line, `Worker.drain` takes all lines.
* `Worker.run` drains again and again until it is stopped.
* `Worker.onDisk` answers the questions of a worker about files from a disk.

A job whose key was processed before by the same worker is passed over. When a job fails, the
offset stays in front of it; when it fails because the worker is being stopped, that is no failure
of the worker.
-/

namespace AgentRelay

/-! ### Failures -/

/-- Why the queue worker stopped. -/
inductive WorkerError
  | missingQueuePath
  | invalidPollInterval
  /-- An operation on the queue file failed. -/
  | queue (operation : String) (path : String) (error : OsError)
  /-- The line at an offset is no job. -/
  | record (offset : Nat) (error : Job.LineError)
  | processor (jobId : String) (cause : Failure)
  | checkpoint (error : CursorError)
  deriving DecidableEq

namespace WorkerError

/-- The wording of a failure. -/
def message : WorkerError → String
  | missingQueuePath => "queue path is required"
  | invalidPollInterval => "poll interval must be greater than 0"
  | queue operation path error => s!"{operation} queue file {path}: {error.message}"
  | record offset error => s!"queue record at offset {offset}: {error.message}"
  | processor jobId cause => s!"process queued job {Text.quoted jobId}: {cause.text}"
  | checkpoint error => "worker checkpoint: " ++ error.message

/-- The part of the worker that failed. -/
def area : WorkerError → WorkerArea
  | missingQueuePath | invalidPollInterval => .config
  | queue .. => .queue
  | record .. => .record
  | processor .. => .processor
  | checkpoint _ => .checkpoint

/-- The texts of the causes behind it. The cause of a failed job is part of the wording only. -/
def sources : WorkerError → List String
  | queue _ _ error => [error.message]
  | record _ error => error.message :: error.sources
  | checkpoint error => error.message :: error.sources
  | _ => []

/-- The failure as a chain of causes. -/
def failure (e : WorkerError) : Failure := ⟨.worker e.area e.message, e.sources.map .note⟩

end WorkerError

/-! ### Cycles -/

/-- What a worker is told at its start. -/
structure WorkerConfig where
  queuePath : String := "runner-logs/agent-session.jobs.jsonl"
  pollInterval : Span := .ofMillis 250
  /-- Drain the queue once and stop. -/
  once : Bool := false
  /-- The name under which the worker reports. -/
  name : String := "queue-worker"
  deriving DecidableEq

/-- What a worker asks. -/
inductive WorkerQuestion
  /-- Is the worker to stop? -/
  | isCancelled
  | loadCursor
  | saveCursor (offset : Nat)
  /-- The size of the queue file. -/
  | size (path : String)
  /-- Opens the queue file for this cycle. -/
  | openQueue (path : String)
  /-- The bytes from an offset up to the next line feed or the end of the file. -/
  | line (path : String) (offset : Nat)
  | process (job : Job)
  /-- Waits for the poll interval, or until the worker is to stop: is it to stop? -/
  | pause (interval : Span)
  deriving DecidableEq

/-- What it is answered. -/
def WorkerAnswer : WorkerQuestion → Type
  | .isCancelled => Bool
  | .loadCursor => Except CursorError Nat
  | .saveCursor _ => Except CursorError Unit
  | .size _ => Except OsError Nat
  | .openQueue _ => Except OsError Unit
  | .line _ _ => Except OsError Bytes
  | .process _ => Except Failure Unit
  | .pause _ => Bool

/-- A part of the work of a worker. -/
abbrev WorkerScript := Script WorkerQuestion WorkerAnswer

/-- A worker between two cycles. -/
structure Worker where
  config : WorkerConfig
  /-- Where the next line starts. -/
  offset : Nat
  /-- The keys of the jobs that were processed. -/
  seen : List String := []

/-- What a cycle has done. -/
structure DrainReport where
  processed : Nat := 0
  duplicates : Nat := 0
  blank : Nat := 0
  deriving DecidableEq

/-- A cycle: the worker in it, what it has done, and how it ended if it has. -/
structure Drain where
  worker : Worker
  report : DrainReport := {}
  outcome : Option (Except WorkerError Unit) := none

namespace Drain

/-- The cycle ends well. -/
def finish (d : Drain) : Drain := { d with outcome := some (.ok ()) }

/-- The cycle ends with a failure. -/
def fail (d : Drain) (e : WorkerError) : Drain := { d with outcome := some (.error e) }

/-- Saves an offset; only then is it the worker's. -/
def checkpoint (d : Drain) (offset : Nat) (next : Drain → WorkerScript Drain) : WorkerScript Drain :=
  .ask (.saveCursor offset) fun (r : Except CursorError Unit) =>
    match r with
    | .error e => .done (d.fail (.checkpoint e))
    | .ok () => next { d with worker := { d.worker with offset } }

/-- Opens the file at the offset. -/
def openFile (d : Drain) : WorkerScript Drain :=
  let path := d.worker.config.queuePath
  .ask (.openQueue path) fun (r : Except OsError Unit) =>
    .done (match r with
      | .ok () => d
      | .error e => if e = .notFound then d.finish else d.fail (.queue "open" path e))

/-- Looks at the file. When it is shorter than the offset, reading starts over. -/
def begin (w : Worker) : WorkerScript Drain :=
  let d : Drain := { worker := w }
  let path := w.config.queuePath
  .ask .isCancelled fun (isCancelled : Bool) =>
    if isCancelled then .done d.finish
    else .ask (.size path) fun (r : Except OsError Nat) =>
      match r with
      | .error e =>
        .done (if e = .notFound then d.finish else d.fail (.queue "stat" path e))
      | .ok size => if size < w.offset then d.checkpoint 0 openFile else d.openFile

/-- The key has been seen; the empty key never counts as seen. -/
def isDuplicate (w : Worker) (key : String) : Bool := !key.isEmpty && w.seen.contains key

/-- The worker after a job with a key was processed. -/
def remember (w : Worker) (key : String) : Worker :=
  if key.isEmpty then w else { w with seen := key :: w.seen }

/-- Has a job processed whose line ends at `next`. -/
def processJob (d : Drain) (j : Job) (next : Nat) : WorkerScript Drain :=
  .ask (.process j) fun (r : Except Failure Unit) =>
    match r with
    | .ok () =>
      { d with worker := remember d.worker j.key
               report := { d.report with processed := d.report.processed + 1 } }.checkpoint next .done
    | .error cause =>
      .ask .isCancelled fun (isCancelled : Bool) =>
        .done (if isCancelled then d.finish else d.fail (.processor j.id cause))

/-- Deals with a complete line that ends at `next`. -/
def takeLine (d : Drain) (line : Bytes) (next : Nat) : WorkerScript Drain :=
  if (Bytes.trimAscii line).isEmpty then
    { d with report := { d.report with blank := d.report.blank + 1 } }.checkpoint next .done
  else match Job.ofLine line with
    | .error e => .done (d.fail (.record d.worker.offset e))
    | .ok j =>
      if isDuplicate d.worker j.key then
        { d with report := { d.report with duplicates := d.report.duplicates + 1 } }.checkpoint
          next .done
      else d.processJob j next

/-- Takes the next line, if there is a complete one. -/
def turn (d : Drain) : WorkerScript Drain :=
  let path := d.worker.config.queuePath
  .ask .isCancelled fun (isCancelled : Bool) =>
    if isCancelled then .done d.finish
    else .ask (.line path d.worker.offset) fun (r : Except OsError Bytes) =>
      match r with
      | .error e => .done (d.fail (.queue "read" path e))
      | .ok line =>
        if line.getLast? = some 10 then d.takeLine line (d.worker.offset + line.length)
        else .done d.finish

/-- Takes at most `n` turns. -/
def turns : Nat → Drain → WorkerScript Drain
  | 0, d => .done d
  | n + 1, d =>
    match d.outcome with
    | some _ => .done d
    | none => d.turn.bind (turns n)

end Drain

namespace Worker

/-- A worker that goes on from the saved offset. -/
def start (config : WorkerConfig) : WorkerScript (Except WorkerError Worker) :=
  if config.queuePath.isEmpty then .done (.error .missingQueuePath)
  else if config.pollInterval.isZero then .done (.error .invalidPollInterval)
  else .ask .loadCursor fun (r : Except CursorError Nat) =>
    .done (match r with
      | .ok offset => .ok { config, offset }
      | .error e => .error (.checkpoint e))

/-- One cycle of at most `n` turns. -/
def drain (n : Nat) (w : Worker) : WorkerScript Drain := (Drain.begin w).bind (Drain.turns n)

/-- Drains once, or again and again until the worker is to stop: at most `cycles` times, with at
most `n` turns each. -/
def run (n : Nat) : Nat → Worker → WorkerScript Drain
  | 0, w => .done { worker := w }
  | cycles + 1, w =>
    (w.drain n).bind fun d =>
      match d.outcome with
      | some (.ok ()) =>
        if w.config.once then .done d
        else .ask (.pause w.config.pollInterval) fun (stops : Bool) =>
          if stops then .done d else run n cycles d.worker
      | _ => .done d

end Worker

/-! ### On a disk -/

/-- The bytes up to the first line feed, with it, or all of them. -/
def firstLine : Bytes → Bytes
  | [] => []
  | b :: rest => if b == 10 then [b] else b :: firstLine rest

namespace Worker

/-- What a worker needs beside files. -/
structure Surroundings (m : Type → Type) where
  cursor : CursorStore m
  isCancelled : m Bool
  process : Job → m (Except Failure Unit)
  pause : m Bool

/-- Answers a worker from the disk of `m` and its other surroundings. -/
def onDisk {m : Type → Type} [Monad m] [MonadStateOf Disk m] (s : Surroundings m) :
    (q : WorkerQuestion) → m (WorkerAnswer q)
  | .isCancelled => s.isCancelled
  | .loadCursor => s.cursor.load
  | .saveCursor offset => s.cursor.save offset
  | .size path => do return (← getThe Disk).size path
  | .openQueue path => do return ((← getThe Disk).find path).map fun _ => ()
  | .line path offset => do
    return ((← getThe Disk).read path).map fun content => firstLine (content.drop offset)
  | .process j => s.process j
  | .pause _ => s.pause

end Worker
end AgentRelay
