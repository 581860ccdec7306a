import AgentRelay.Agent.Prompt
import AgentRelay.Queue.Append
import AgentRelay.Text.Lossy

/-!
# Running a command as the agent

The agent may be any program: it gets the prompt on its standard input, and how it exits says how
the run went. What it printed is kept in a log, and the end of its error output is the reason for a
failure.

* `CommandRunner.of?` makes a runner of a program and its arguments.
* `CommandRunner.run` is one run.
-/

namespace AgentRelay

/-- How a program ended. -/
inductive ExitStatus
  | code (n : Nat)
  | signal (n : Nat)
  deriving DecidableEq

namespace ExitStatus

/-- The names of signals. -/
def signalNames : List (Nat × String) :=
  [(1, "SIGHUP"), (2, "SIGINT"), (3, "SIGQUIT"), (4, "SIGILL"), (5, "SIGTRAP"), (6, "SIGABRT"),
   (7, "SIGBUS"), (8, "SIGFPE"), (9, "SIGKILL"), (10, "SIGUSR1"), (11, "SIGSEGV"),
   (12, "SIGUSR2"), (13, "SIGPIPE"), (14, "SIGALRM"), (15, "SIGTERM"), (16, "SIGSTKFLT"),
   (17, "SIGCHLD"), (18, "SIGCONT"), (19, "SIGSTOP"), (20, "SIGTSTP"), (21, "SIGTTIN"),
   (22, "SIGTTOU"), (23, "SIGURG"), (24, "SIGXCPU"), (25, "SIGXFSZ"), (26, "SIGVTALRM"),
   (27, "SIGPROF"), (28, "SIGWINCH"), (29, "SIGIO"), (30, "SIGPWR"), (31, "SIGSYS")]

/-- The wording of an exit status. -/
def text : ExitStatus → String
  | code n => s!"exit status: {n}"
  | signal n =>
    match signalNames.lookup n with
    | some name => s!"signal: {n} ({name})"
    | none => s!"signal: {n}"

/-- The program succeeded. -/
def isSuccess (s : ExitStatus) : Bool := s == code 0

end ExitStatus

/-- What a program left behind. -/
structure CommandOutput where
  status : ExitStatus
  stdout : Bytes := []
  stderr : Bytes := []
  deriving DecidableEq

/-- A program to run. -/
structure Invocation where
  program : String
  arguments : List String
  /-- Variables that are set for the program. -/
  environment : List (String × String)
  folder : Option String
  input : Bytes
  /-- The longest that it may run. -/
  limit : Option Span
  deriving DecidableEq

/-- The texts that the system is given to start a program. -/
def Invocation.texts (x : Invocation) : List String :=
  x.program :: x.arguments ++ x.environment.flatMap (fun v => [v.1, v.2]) ++ x.folder.toList

/-- Why a program cannot even be tried: one of its texts holds the character that ends texts for
the system. -/
def Invocation.fault? (x : Invocation) : Option OsError :=
  if x.texts.any (·.toList.contains '\x00') then some .unusableText else none

/-- How the attempt to run a program ends. -/
inductive CommandEnding
  | exited (output : CommandOutput)
  /-- It could not be started. -/
  | notStarted (error : OsError)
  /-- Its end could not be awaited. -/
  | lost (error : OsError)
  /-- The caller gave up. -/
  | cancelled
  | timedOut
  deriving DecidableEq

/-- Why a command could not be run. -/
inductive CommandError
  | empty
  | notStarted (program : String) (error : OsError)
  | lost (error : OsError)
  | cancelled
  | timedOut (limit : Span)
  | log (path : String) (error : OsError)
  deriving DecidableEq

namespace CommandError

/-- The wording of a failure. -/
def message : CommandError → String
  | empty => "agent command is empty"
  | notStarted program error => s!"spawn agent command {Text.quoted program}: {error.message}"
  | lost error => "wait for agent command: " ++ error.message
  | cancelled => "agent run cancelled"
  | timedOut limit => "runner timeout after " ++ limit.text
  | log path error => s!"write runner log {path}: {error.message}"

/-- The texts of the causes behind it. -/
def sources : CommandError → List String
  | notStarted _ error | lost error | log _ error => [error.message]
  | _ => []

/-- The failure as a chain of causes. -/
def failure (e : CommandError) : Failure := .notes e.message e.sources

end CommandError

/-- What a run asks. -/
inductive CommandQuestion
  | run (invocation : Invocation)
  | file (question : FileQuestion)
  /-- The path of a file from the root, if it can be told. -/
  | fullPath (path : String)
  deriving DecidableEq

/-- What it is answered. -/
def CommandAnswer : CommandQuestion → Type
  | .run _ => CommandEnding
  | .file q => FileAnswer q
  | .fullPath _ => Option String

/-- Runs a program as the agent. -/
structure CommandRunner where
  program : String
  arguments : List String
  folder : Option String := none
  /-- The folder for logs, if they are kept. -/
  logDir : Option String := none
  timeout : Option Span := none
  deriving DecidableEq

namespace CommandRunner

/-- The runner of a command: the first part that is not blank is the program. -/
def of? (command : List String) : Except CommandError CommandRunner :=
  match command.filterMap Text.filled? with
  | [] => .error .empty
  | program :: arguments => .ok { program, arguments }

/-- Limits the time of a run; no time at all is no limit. -/
def withTimeout (c : CommandRunner) (limit : Span) : CommandRunner :=
  if limit.isZero then c else { c with timeout := some limit }

/-- The program to run for a request. -/
def invocation (c : CommandRunner) (r : AgentRequest) : Invocation where
  program := c.program
  arguments := c.arguments
  environment := [("SESSIONFLOW_SESSION_ID", r.sessionId), ("SESSIONFLOW_TASK_ID", r.taskId)]
  folder := c.folder
  input := Bytes.utf8 r.prompt
  limit := c.timeout

/-- The output of a program that ended by itself. -/
def outputOf (c : CommandRunner) : CommandEnding → Except CommandError CommandOutput
  | .exited output => .ok output
  | .notStarted e => .error (.notStarted c.program e)
  | .lost e => .error (.lost e)
  | .cancelled => .error .cancelled
  | .timedOut => .error (.timedOut (c.timeout.getD ⟨0⟩))

/-! ### The log -/

/-- The line between output and error output. -/
def logDivider : Bytes := Bytes.utf8 "\n--- stderr ---\n"

/-- The content of a log. -/
def logContent (o : CommandOutput) : Bytes :=
  o.stdout ++ if o.stderr.isEmpty then [] else logDivider ++ o.stderr

/-- An operation on files. -/
def onFile (q : FileQuestion) : Script CommandQuestion CommandAnswer (FileAnswer q) :=
  .ask (.file q) .done

/-- Writes the log of a run and tells its path. -/
def writeLog (c : CommandRunner) (r : AgentRequest) (o : CommandOutput) :
    Script CommandQuestion CommandAnswer (Except CommandError (Option String)) :=
  match c.logDir with
  | none => .done (.ok none)
  | some folder =>
    let path := Path.join folder (r.taskId ++ ".log")
    fileStep onFile (.makeFolders folder) (.log path) fun _ =>
      fileStep onFile (.truncate path) (.log path) fun _ =>
        fileStep onFile (.write path (logContent o)) (.log path) fun _ =>
          .ask (.fullPath path) fun (full : Option String) => .done (.ok (some (full.getD path)))

/-! ### The outcome -/

/-- How many lines of error output are kept as the reason of a failure. -/
def tailLines : Nat := 20

/-- The last lines of error output, without blank ones. -/
def stderrTail (stderr : Bytes) : List String :=
  let lines := (Text.lines (Text.lossy stderr)).filterMap Text.filled?
  lines.drop (lines.length - tailLines)

/-- Why a program failed. -/
def failureReason (o : CommandOutput) : String :=
  "\n".intercalate (s!"agent command failed ({o.status.text})" :: stderrTail o.stderr)

/-- The label of the link to a log. -/
def logLabel : String := "Runner log"

/-- The outcome of a run with a log at a path. -/
def outcome (o : CommandOutput) (logPath : Option String) : AgentOutcome :=
  { (if o.status.isSuccess then AgentOutcome.completed else .failure (failureReason o)) with
    logPath
    urls := logPath.toList.map fun path => ⟨logLabel, "file://" ++ path⟩ }

/-- One run. -/
def run (c : CommandRunner) (r : AgentRequest) :
    Script CommandQuestion CommandAnswer (Except CommandError AgentOutcome) :=
  let x := c.invocation r
  match x.fault? with
  | some e => .done (.error (.notStarted c.program e))
  | none =>
    .ask (.run x) fun (ending : CommandEnding) =>
      match c.outputOf ending with
      | .error e => .done (.error e)
      | .ok output =>
        (c.writeLog r output).bind fun logPath => .done (logPath.map (outcome output))

end CommandRunner
end AgentRelay
