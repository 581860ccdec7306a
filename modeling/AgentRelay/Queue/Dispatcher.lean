import AgentRelay.Queue.Sink

/-!
# A buffer in front of the sink

A dispatcher accepts jobs into a buffer that never grows beyond its capacity, and one background
task writes them to the sink in the order in which they were accepted. Once it is closed it accepts
nothing more, and what it accepted is still written.

* `send` and `count` are the two halves of `dispatch`: the job enters the buffer before it is
  counted.
* `take` and `settleWrite` are the steps of the background task, `drain` takes them until the
  sink waits.
* `Closers` are the calls that wait for the last write. Only the first in line looks whether it is
  cancelled; the others wait for their turn.
-/

namespace AgentRelay

/-- What a dispatcher has counted. -/
structure DispatchStats where
  accepted : Nat := 0
  rejectedFull : Nat := 0
  written : Nat := 0
  writeFailures : Nat := 0
  deriving DecidableEq

/-- A buffer in front of a sink. -/
structure Dispatcher where
  capacity : Nat
  isOpen : Bool := true
  /-- Accepted jobs that wait. -/
  buffer : List Job := []
  /-- The job that the background task is writing. -/
  writing : Option Job := none
  stats : DispatchStats := {}

namespace Dispatcher

/-- The name under which a dispatcher reports. -/
def defaultName : String := "webhook-dispatcher"

/-- An open dispatcher; it holds at least one job. -/
def ofCapacity (capacity : Nat) : Dispatcher := { capacity := max capacity 1 }

/-! ### Accepting -/

/-- How the attempt to put a job into the buffer ends. -/
inductive Sent
  | accepted
  | full
  | closed
  deriving DecidableEq

/-- Puts a job into the buffer. -/
def send (d : Dispatcher) (j : Job) : Sent × Dispatcher :=
  if !d.isOpen then (.closed, d)
  else if d.capacity ≤ d.buffer.length then (.full, d)
  else (.accepted, { d with buffer := d.buffer ++ [j] })

/-- Counts an attempt. -/
def count (d : Dispatcher) : Sent → Dispatcher
  | .accepted => { d with stats := { d.stats with accepted := d.stats.accepted + 1 } }
  | .full => { d with stats := { d.stats with rejectedFull := d.stats.rejectedFull + 1 } }
  | .closed => d

/-- The answer to an attempt. -/
def Sent.result : Sent → Except DispatchError Unit
  | .accepted => .ok ()
  | .full => .error .queueFull
  | .closed => .error .closed

/-- Hands a job over, for a caller that may have been cancelled. -/
def dispatch (d : Dispatcher) (cancelled : Bool) (j : Job) : Except DispatchError Unit × Dispatcher :=
  if cancelled then (.error .cancelled, d)
  else
    let (sent, d) := d.send j
    (sent.result, d.count sent)

/-! ### Writing -/

/-- The background task takes the next job out of the buffer. -/
def take (d : Dispatcher) : Option Dispatcher :=
  match d.writing, d.buffer with
  | none, j :: rest => some { d with writing := some j, buffer := rest }
  | _, _ => none

/-- The background task counts a finished write. -/
def settleWrite (d : Dispatcher) (r : Except SinkError Unit) : Dispatcher :=
  match r with
  | .ok _ =>
    { d with writing := none, stats := { d.stats with written := d.stats.written + 1 } }
  | .error _ =>
    { d with writing := none, stats := { d.stats with writeFailures := d.stats.writeFailures + 1 } }

/-- The background task has ended: nothing can enter the buffer, and all is written. -/
def isDrained (d : Dispatcher) : Bool := !d.isOpen && d.buffer.isEmpty && d.writing.isNone

/-- Writes the jobs that wait, at most `n` of them, until the sink waits. -/
def drainUpTo {σ : Type} (write : Job → σ → Option (Except SinkError Unit × σ)) :
    Nat → Dispatcher → σ → Dispatcher × σ
  | 0, d, s => (d, s)
  | n + 1, d, s =>
    let d := d.take.getD d
    match d.writing with
    | none => (d, s)
    | some j =>
      match write j s with
      | none => (d, s)
      | some (r, s) => drainUpTo write n (d.settleWrite r) s

/-- The background task runs until it has nothing to do or the sink waits. -/
def drain {σ : Type} (write : Job → σ → Option (Except SinkError Unit × σ)) (d : Dispatcher)
    (s : σ) : Dispatcher × σ :=
  drainUpTo write (d.buffer.length + 1) d s

/-- Hands a job straight to the sink, without a buffer; there is no answer as long as the sink
waits. -/
def writeThrough {σ : Type} (write : Job → σ → Option (Except SinkError Unit × σ))
    (cancelled : Bool) (j : Job) (s : σ) : Option (Except DispatchError Unit × σ) :=
  if cancelled then some (.error .cancelled, s)
  else (write j s).map fun (r, s) => (r.mapError .sink, s)

/-! ### Closing -/

/-- Accepts nothing more. -/
def beginClose (d : Dispatcher) : Dispatcher := { d with isOpen := false }

/-- The calls that wait for the end of the background task. -/
structure Closers where
  /-- A call has seen the end. -/
  joined : Bool := false
  /-- The calls in the order in which they arrived. -/
  line : List Nat := []
  deriving DecidableEq

/-- A call gets in line. -/
def Closers.enter (c : Closers) (id : Nat) : Closers := { c with line := c.line ++ [id] }

/-- A call is abandoned by its caller. -/
def Closers.leave (c : Closers) (id : Nat) : Closers := { c with line := c.line.filter (· != id) }

/-- A call looks whether it can return: only the first in line does. It returns when the
background task has ended, or else when it is cancelled itself. -/
def Closers.poll (c : Closers) (d : Dispatcher) (id : Nat) (cancelled : Bool) :
    Option (Except DispatchError Unit × Closers) :=
  if c.line.head? ≠ some id then none
  else if c.joined || d.isDrained then some (.ok (), { joined := true, line := c.line.tail })
  else if cancelled then some (.error .cancelled, { c with line := c.line.tail })
  else none

end Dispatcher
end AgentRelay
