import AgentRelay.Tracker.Error

/-!
# Failures and their causes

A failure is a chain: what failed, and behind it the causes, each with its own wording. Code that
passes a failure on may put a context in front. Some causes keep their kind, so that the summary
for an operator can rest on more than words.

* `Failure.text` is the whole chain on one line.
* `Failure.context` puts a text in front and keeps the chain.
-/

namespace AgentRelay

/-- The part of the queue worker that a failure belongs to. -/
inductive WorkerArea
  | config
  | queue
  | record
  | processor
  | checkpoint
  deriving DecidableEq

/-- The name of the area. -/
def WorkerArea.name : WorkerArea → String
  | .config => "config"
  | .queue => "queue"
  | .record => "record"
  | .processor => "processor"
  | .checkpoint => "checkpoint"

/-- One link in a chain of causes. -/
inductive Cause
  /-- A cause that is known by its wording alone. -/
  | note (text : String)
  | tracker (error : Tracker.Error)
  /-- No token is configured. -/
  | missingToken (text : String)
  | worker (area : WorkerArea) (text : String)
  deriving DecidableEq

/-- The wording of a link. -/
def Cause.text : Cause → String
  | .note text => text
  | .tracker error => error.message
  | .missingToken text => text
  | .worker _ text => text

/-- What failed and why. -/
structure Failure where
  outer : Cause
  sources : List Cause := []
  deriving DecidableEq

namespace Failure

instance : Inhabited Failure := ⟨⟨.note "", []⟩⟩

/-- The links, the outermost first. -/
def chain (f : Failure) : List Cause := f.outer :: f.sources

/-- The whole chain on one line. -/
def text (f : Failure) : String := ": ".intercalate (f.chain.map Cause.text)

/-- Puts a context in front. -/
def context (f : Failure) (text : String) : Failure := ⟨.note text, f.chain⟩

/-- A failure that is known by its wording alone. -/
def note (text : String) : Failure := ⟨.note text, []⟩

/-- A text and, behind it, the texts of its causes. -/
def notes (text : String) (sources : List String) : Failure := ⟨.note text, sources.map .note⟩

/-- A failed call to the tracker. -/
def ofTracker (e : Tracker.Error) : Failure := ⟨.tracker e, e.sources.map .note⟩

/-- The area of the worker that the chain names first. -/
def workerArea? (f : Failure) : Option WorkerArea :=
  f.chain.findSome? fun
    | .worker area _ => some area
    | _ => none

end Failure
end AgentRelay
