import AgentRelay.Bytes
import AgentRelay.Script
import AgentRelay.Storage.OsError
import AgentRelay.Storage.Path

/-!
# Files and folders

What the program does with files is a list of small operations, each of which succeeds or fails
as a whole.

* `FileQuestion` is the list of operations.
* `Disk` is a tree of files and folders. `Disk.locate` follows a path on it, `Disk.answer` performs
  an operation.
-/

namespace AgentRelay

/-- An operation on files. -/
inductive FileQuestion
  | read (path : String)
  /-- The size of what stands at a path. -/
  | size (path : String)
  /-- Makes a folder and the folders around it, unless they exist. -/
  | makeFolders (path : String)
  /-- Opens a file for appending and makes it if it is missing. -/
  | openAppend (path : String)
  /-- Makes an empty file, or empties the one that is there. -/
  | truncate (path : String)
  /-- Writes at the end of an open file. -/
  | write (path : String) (bytes : Bytes)
  /-- Waits until what was written is safe. -/
  | sync (path : String)
  /-- Puts a file in the place of another, in one step. -/
  | rename (source target : String)
  deriving DecidableEq

/-- What an operation answers with. -/
def FileQuestion.Result : FileQuestion → Type
  | read _ => Bytes
  | size _ => Nat
  | _ => Unit

/-- The answer to an operation. -/
def FileAnswer (q : FileQuestion) : Type := Except OsError q.Result

/-- What stands at a place. -/
inductive Entry
  | file (content : Bytes)
  | folder
  deriving DecidableEq

/-- Files and folders by their place: the names on the way to it, a slash in front of each. The
root is always there, at the empty place. -/
structure Disk where
  entries : List (String × Entry) := []

namespace Disk

/-- What stands at a place. -/
def entry? (d : Disk) (place : String) : Option Entry :=
  if place.isEmpty then some .folder else d.entries.lookup place

/-- Removes the entry at a place. -/
def remove (d : Disk) (place : String) : Disk := ⟨d.entries.filter fun x => x.1 != place⟩

/-- Puts an entry at a place. -/
def put (d : Disk) (place : String) (e : Entry) : Disk := ⟨(place, e) :: (d.remove place).entries⟩

/-! ### Following a path -/

/-- The most bytes that a name may have. -/
def longestName : Nat := 255

/-- The most bytes that a path may have. -/
def longestPath : Nat := 4095

/-- Why nothing has a name: it may be one that nothing can have. -/
def missing (name : String) : OsError :=
  if longestName < name.utf8ByteSize then .nameTooLong else .notFound

/-- The way from the root to a folder: the places of the folders on it, the last one first. -/
abbrev Way := List String

/-- The place that a way leads to. -/
def Way.place (way : Way) : String := way.headD ""

/-- The place of a name in the folder that a way leads to. -/
def Way.child (way : Way) (name : String) : String := way.place ++ "/" ++ name

/-- Follows a part of a path that must be a folder. -/
def enter (d : Disk) (way : Way) : PathPart → Except OsError Way
  | .here => .ok way
  | .up => .ok way.tail
  | .name n =>
    match d.entry? (way.child n) with
    | some .folder => .ok (way.child n :: way)
    | some (.file _) => .error .notFolder
    | none => .error (missing n)

/-- Follows parts of a path that must be folders, from the root on. -/
def walk (d : Disk) (parts : List PathPart) : Except OsError Way := parts.foldlM d.enter []

/-- A path must be one that the system can read. -/
def readable (path : String) : Except OsError Unit :=
  if path.toList.contains '\x00' then .error .unusableName
  else if longestPath < path.utf8ByteSize then .error .nameTooLong
  else if path.isEmpty then .error .notFound
  else .ok ()

/-- Where a path leads. -/
inductive Target
  /-- A folder: the last part of the path has no name. -/
  | folder (place : String)
  /-- A name in a folder. What has the name may have to be a folder too. -/
  | named (place name : String) (mustBeFolder : Bool)

/-- Follows a path up to its last part. -/
def locate (d : Disk) (path : String) : Except OsError Target := do
  readable path
  let parts := Path.parts path
  match parts.getLast? with
  | some (.name n) =>
    let way ← d.walk parts.dropLast
    return .named (way.child n) n (Path.endsInSlash path)
  | _ => return .folder (← d.walk parts).place

/-- What stands at the end of a path, and its place. -/
def find (d : Disk) (path : String) : Except OsError (String × Entry) := do
  match ← d.locate path with
  | .folder place => return (place, .folder)
  | .named place name mustBeFolder =>
    match d.entry? place with
    | none => .error (missing name)
    | some (.file content) =>
      if mustBeFolder then .error .notFolder else return (place, .file content)
    | some .folder => return (place, .folder)

/-! ### Operations -/

/-- The content of a file. -/
def read (d : Disk) (path : String) : Except OsError Bytes := do
  match ← d.find path with
  | (_, .file content) => .ok content
  | (_, .folder) => .error .isFolder

/-- The size that is told for a folder. -/
def folderSize : Nat := 4096

/-- The size of what stands at the end of a path. -/
def size (d : Disk) (path : String) : Except OsError Nat := do
  match ← d.find path with
  | (_, .file content) => .ok content.length
  | (_, .folder) => .ok folderSize

/-- Follows parts of a path and makes every folder that is missing on the way. What was made stays
when a later part fails. -/
def makeEach (d : Disk) (way : Way) : List PathPart → Except OsError Unit × Disk
  | [] => (.ok (), d)
  | .here :: parts => d.makeEach way parts
  | .up :: parts => d.makeEach way.tail parts
  | .name n :: parts =>
    match d.entry? (way.child n) with
    | some .folder => d.makeEach (way.child n :: way) parts
    | some (.file _) => (.error (if parts.isEmpty then .exists_ else .notFolder), d)
    | none =>
      if missing n = .notFound then
        (d.put (way.child n) .folder).makeEach (way.child n :: way) parts
      else (.error (missing n), d)

/-- Makes a folder and the folders around it; for the empty path there is nothing to make. -/
def makeFolders (d : Disk) (path : String) : Except OsError Unit × Disk :=
  if path.isEmpty then (.ok (), d)
  else match readable path with
    | .error e => (.error e, d)
    | .ok () => d.makeEach [] (Path.parts path)

/-- Opens a file for writing, with the content that it has then: `keep` what is there, or nothing.
A missing file is made. -/
def opened (d : Disk) (keep : Bool) (path : String) : Except OsError Disk := do
  match ← d.locate path with
  | .folder _ => .error .isFolder
  | .named place name mustBeFolder =>
    if mustBeFolder then .error .isFolder
    else match d.entry? place with
      | some .folder => .error .isFolder
      | some (.file content) => return d.put place (.file (if keep then content else []))
      | none =>
        if missing name = .notFound then return d.put place (.file []) else .error (missing name)

/-- Appends to a file. -/
def write (d : Disk) (path : String) (bytes : Bytes) : Except OsError Disk := do
  match ← d.find path with
  | (place, .file content) => return d.put place (.file (content ++ bytes))
  | (_, .folder) => .error .isFolder

/-- Removes a file. -/
def delete (d : Disk) (path : String) : Except OsError Disk := do
  match ← d.find path with
  | (place, .file _) => return d.remove place
  | (_, .folder) => .error .isFolder

/-- Puts a file in the place of another. -/
def rename (d : Disk) (source target : String) : Except OsError Disk := do
  match ← d.find source with
  | (_, .folder) => .error .isFolder
  | (old, .file content) =>
    match ← d.locate target with
    | .folder _ => .error .isFolder
    | .named place name mustBeFolder =>
      match d.entry? place with
      | some .folder => .error .isFolder
      | e =>
        if mustBeFolder then .error .notFolder
        else if e.isSome || missing name = .notFound then
          return (d.remove old).put place (.file content)
        else .error (missing name)

/-- The answer to an operation that leaves nothing but a changed disk. -/
def changed (d : Disk) (r : Except OsError Disk) : Except OsError Unit × Disk :=
  match r with
  | .ok d => (.ok (), d)
  | .error e => (.error e, d)

/-- Performs an operation. -/
def answer (d : Disk) : (q : FileQuestion) → FileAnswer q × Disk
  | .read path => (d.read path, d)
  | .size path => (d.size path, d)
  | .makeFolders path => d.makeFolders path
  | .openAppend path => d.changed (d.opened true path)
  | .truncate path => d.changed (d.opened false path)
  | .write path bytes => d.changed (d.write path bytes)
  | .sync path => ((d.read path).map fun _ => (), d)
  | .rename source target => d.changed (d.rename source target)

/-- Performs an operation on the disk at hand. -/
def perform (q : FileQuestion) : StateM Disk (FileAnswer q) := fun d => d.answer q

/-- Performs the operations that a script asks for. -/
def execute {α : Type} (s : Script FileQuestion FileAnswer α) (d : Disk) : α × Disk :=
  (s.run perform).run d

end Disk
end AgentRelay
