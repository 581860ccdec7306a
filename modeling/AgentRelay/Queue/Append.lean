import AgentRelay.Queue.Sink
import AgentRelay.Storage.Disk

/-!
# Appending to the queue file

Each job becomes one line at the end of the queue file. Writers of one process take turns, and a
job counts as kept only when its line is safe on disk.
-/

namespace AgentRelay

/-- Performs an operation on files and goes on when it succeeds. -/
def fileStep {Q : Type} {R : Q → Type} {ε α : Type}
    (lift : (q : FileQuestion) → Script Q R (FileAnswer q)) (q : FileQuestion)
    (wrap : OsError → ε) (next : q.Result → Script Q R (Except ε α)) :
    Script Q R (Except ε α) :=
  (lift q).bind fun r =>
    match r with
    | .error e => .done (.error (wrap e))
    | .ok a => next a

/-- Makes the folder that a path lies in. -/
def makeParent {Q : Type} {R : Q → Type} {ε α : Type}
    (lift : (q : FileQuestion) → Script Q R (FileAnswer q)) (path : String)
    (wrap : OsError → ε) (next : Script Q R (Except ε α)) : Script Q R (Except ε α) :=
  match Path.parent? path with
  | none => next
  | some folder =>
    if folder.isEmpty then next else fileStep lift (.makeFolders folder) wrap fun _ => next

namespace Queue

/-- What a writer asks. -/
inductive AppendQuestion
  /-- Has the caller given up? -/
  | isCancelled
  /-- Waits for its turn, which lasts until the writer is done. -/
  | turn
  | file (question : FileQuestion)
  deriving DecidableEq

/-- What it is answered. -/
def AppendAnswer : AppendQuestion → Type
  | .isCancelled => Bool
  | .turn => Unit
  | .file q => FileAnswer q

/-- A writer. -/
abbrev Writer := Script AppendQuestion AppendAnswer (Except SinkError Unit)

/-- An operation of a writer. -/
def onFile (q : FileQuestion) : Script AppendQuestion AppendAnswer (FileAnswer q) :=
  .ask (.file q) .done

/-- Appends a line to a file. -/
def appendLine (path : String) (line : Bytes) : Writer :=
  makeParent onFile path .storage <|
    fileStep onFile (.openAppend path) .storage fun _ =>
      fileStep onFile (.write path line) .storage fun _ =>
        fileStep onFile (.sync path) .storage fun _ => .done (.ok ())

/-- Keeps a job at the end of a queue file. -/
def append (path : String) (j : Job) : Writer :=
  .ask .isCancelled fun (isCancelled : Bool) =>
    if isCancelled then .done (.error .cancelled)
    else .ask .turn fun _ => appendLine path j.line

/-- Answers a writer that is alone. -/
def soleWriter (cancelled : Bool) : (q : AppendQuestion) → StateM Disk (AppendAnswer q)
  | .isCancelled => pure cancelled
  | .turn => pure ()
  | .file q => Disk.perform q

/-- Keeps a job in a queue file on a disk. -/
def appendTo (path : String) (cancelled : Bool) (j : Job) (d : Disk) :
    Except SinkError Unit × Disk :=
  ((append path j).run (soleWriter cancelled)).run d

end Queue
end AgentRelay
