import AgentRelay.Json.Reader
import AgentRelay.Queue.Append

/-!
# The cursor of a queue

How far a queue has been read is kept in a small file beside it. The file is replaced in one step,
so that a reader finds either the old offset or the new one.

* `Cursor.load` reads the offset, zero when there is no file.
* `Cursor.save` writes a temporary file and puts it in the place of the old one.
* `CursorStore` is where a worker keeps its cursor, in such a file or elsewhere.
-/

namespace AgentRelay

open Json

/-- Why the cursor could not be read or written. -/
inductive CursorError
  | storage (path : String) (error : OsError)
  | corrupt (path : String) (fault : Fault)
  deriving DecidableEq

namespace CursorError

/-- The wording of a failure. -/
def message : CursorError → String
  | storage path error => s!"cursor io {path}: {error.message}"
  | corrupt path fault => s!"cursor file {path} is corrupt: {fault.message}"

/-- The texts of the causes behind it. -/
def sources : CursorError → List String
  | storage _ error => [error.message]
  | corrupt _ fault => [fault.message]

end CursorError

namespace Cursor

/-- The cursor file of a queue. -/
def pathFor (queue : String) : String := queue ++ ".offset"

/-- The temporary file of a cursor file. -/
def temporary (path : String) : String := path ++ ".tmp"

/-- The content of a cursor file. -/
def json (offset : Nat) : Bytes := object [member "offset" (intText offset)]

/-- Reads the content of a cursor file. The offset must be there. -/
def reader : Reader Nat :=
  (checkedRecord "CursorRecord"
    [field "offset" (integer "u64" 0 (UInt64.size - 1)) fun v _ => some v.toNat]
    (none : Option Nat) fun isArray offset =>
      if offset.isSome then none
      else if isArray then some (.tooShort "struct CursorRecord with 1 element")
      else some (.missing "offset")).map fun offset => offset.getD 0

/-- An operation on files. -/
def onFile (q : FileQuestion) : Script FileQuestion FileAnswer (FileAnswer q) := .ask q .done

/-- The offset in the content of a cursor file. -/
def decode (path : String) (content : Bytes) : Except CursorError Nat :=
  (readAll reader content).mapError (.corrupt path)

/-- Reads the offset. -/
def load (path : String) : Script FileQuestion FileAnswer (Except CursorError Nat) :=
  .ask (.read path) fun (r : Except OsError Bytes) =>
    .done (match r with
      | .ok content => decode path content
      | .error e => if e = .notFound then .ok 0 else .error (.storage path e))

/-- Writes the offset. -/
def save (path : String) (offset : Nat) :
    Script FileQuestion FileAnswer (Except CursorError Unit) :=
  let temporary := temporary path
  makeParent onFile path (.storage path) <|
    fileStep onFile (.truncate temporary) (.storage path) fun _ =>
      fileStep onFile (.write temporary (json offset)) (.storage path) fun _ =>
        fileStep onFile (.sync temporary) (.storage path) fun _ =>
          fileStep onFile (.rename temporary path) (.storage path) fun _ => .done (.ok ())

end Cursor

/-- Where a cursor is kept. -/
structure CursorStore (m : Type → Type) where
  load : m (Except CursorError Nat)
  save : Nat → m (Except CursorError Unit)

namespace CursorStore

variable {m : Type → Type} [Monad m]

/-- Runs operations on the disk of `m`. -/
def onDisk [MonadStateOf Disk m] {α : Type} (s : Script FileQuestion FileAnswer α) : m α :=
  modifyGet (Disk.execute s)

/-- A cursor in a file. -/
def file [MonadStateOf Disk m] (path : String) : CursorStore m where
  load := onDisk (Cursor.load path)
  save offset := onDisk (Cursor.save path offset)

end CursorStore

end AgentRelay
