import AgentRelay.Agent.Command
import AgentRelay.StandIn.Script

/-!
# Programs that stand in for an agent

What a program does is told by what it has read, written and set so far, and by how it ends.

* `printf` writes a format with places for arguments, as often as the arguments ask for.
* `State` is what a program has done so far, `Outlets` tells where what it writes goes.
* `simple` runs a command of one name and its arguments; `assign` sets variables, and `command` runs
  the fields that are left.
* `runFrom` runs the statements of a script.
* `answer` answers an attempt to run a program.
-/

namespace AgentRelay.StandIn

/-! ### Formats -/

/-- The characters with a short escape, with the letters of the escapes. -/
def shortEscapes : List (Char × UInt8) :=
  [('a', 7), ('b', 8), ('t', 9), ('n', 10), ('v', 11), ('f', 12), ('r', 13), ('\\', 92)]

/-- A digit of an octal number. -/
def isOctal (c : Char) : Bool := '0' ≤ c && c ≤ '7'

/-- The byte that up to three octal digits write. -/
def octalByte (ds : List Char) : UInt8 :=
  (ds.foldl (fun n (c : Char) => n * 8 + (c.toNat - 48)) 0).toUInt8

/-- The bytes of the escape behind a backslash, and the text behind it. -/
def readEscape (cs : List Char) : Bytes × List Char :=
  let octal := (cs.take 3).takeWhile isOctal
  if octal.isEmpty then
    match cs with
    | [] => ([92], [])
    | c :: rest => ((shortEscapes.lookup c).elim (92 :: Bytes.utf8 c.toString) (fun b => [b]), rest)
  else ([octalByte octal], cs.drop octal.length)

/-- Writes a format once, at most so many characters of it, and tells the arguments that are
left. A place without an argument stays empty. -/
def fillFrom : Nat → List Char → List String → Bytes × List String
  | 0, _, args => ([], args)
  | _ + 1, [], args => ([], args)
  | n + 1, c :: cs, args =>
    let before (b : Bytes) (r : Bytes × List String) : Bytes × List String := (b ++ r.1, r.2)
    if c = '\\' then
      let (b, rest) := readEscape cs
      before b (fillFrom n rest args)
    else if c = '%' then
      match cs with
      | [] => ([37], args)
      | 's' :: rest => before (Bytes.utf8 (args.headD "")) (fillFrom n rest args.tail)
      | 'd' :: rest =>
        before (Bytes.utf8 (toString ((args.headD "").toInt?.getD 0))) (fillFrom n rest args.tail)
      | d :: rest => before (Bytes.utf8 d.toString) (fillFrom n rest args)
    else before (Bytes.utf8 c.toString) (fillFrom n cs args)

/-- Writes a format once. -/
def fill (format : String) (args : List String) : Bytes × List String :=
  fillFrom (format.length + 1) format.toList args

/-- Writes a format as often as its arguments ask for, at most so often. -/
def fillAll (format : String) : Nat → List String → Bytes
  | 0, _ => []
  | n + 1, args =>
    let (b, rest) := fill format args
    if rest.isEmpty || rest.length = args.length then b else b ++ fillAll format n rest

/-- Writes a format with arguments. -/
def printf (format : String) (args : List String) : Bytes := fillAll format (args.length + 1) args

/-- The bytes of a text with escapes. -/
def unescape (text : String) : Bytes := printf (text.replace "%" "%%") []

/-! ### What a program has done -/

/-- The text of bytes. A shell does not keep bytes that are zero. -/
def textOf (b : Bytes) : String := Text.lossy (b.filter (· ≠ 0))

/-- What a program has done so far. -/
structure State where
  bindings : Variables := []
  /-- What there is to read. -/
  input : Bytes := []
  /-- What it has written, the latest byte first. -/
  output : Bytes := []
  /-- What it has written to its error output, the latest byte first. -/
  errors : Bytes := []
  /-- The status of the last command. -/
  status : Nat := 0
  /-- How many milliseconds it has slept. -/
  slept : Nat := 0
  /-- When the last of the statements ends that nothing waits for. -/
  held : Nat := 0

/-- Why the statements that are left do not run. -/
inductive Stop
  /-- The shell was left. -/
  | left (s : State)
  /-- The whole program ended. -/
  | ended (e : CommandEnding)

/-- What has come of some statements. -/
abbrev Progress := Except Stop State

/-- Where output and error output go. -/
structure Outlets where
  output : Outlet := .output
  errors : Outlet := .errors

namespace Outlets

/-- Where an outlet goes. -/
def target (o : Outlets) : Outlet → Outlet
  | .output => o.output
  | .errors => o.errors
  | .nowhere => .nowhere

/-- Makes an outlet go where another one goes. -/
def redirect (o : Outlets) : Redirect → Outlets
  | .sends .output t => { o with output := o.target t }
  | .sends .errors t => { o with errors := o.target t }
  | _ => o

/-- Whether something is written that someone reads. -/
def areOpen (o : Outlets) : Bool := o.output != .nowhere || o.errors != .nowhere

end Outlets

namespace State

/-- Writes to an outlet. -/
def write (s : State) (b : Bytes) : Outlet → State
  | .output => { s with output := b.reverseAux s.output }
  | .errors => { s with errors := b.reverseAux s.errors }
  | .nowhere => s

/-- Ends a command: its status, its output and its error output. -/
def ended (s : State) (o : Outlets) (status : Nat) (output : Bytes) (errors : String) : State :=
  { (s.write output o.output).write (Bytes.utf8 errors) o.errors with status }

/-- Ends a command that succeeded. -/
def succeeded (s : State) (o : Outlets) (output : Bytes) : State := s.ended o 0 output ""

/-- Sets a variable. -/
def set (s : State) (name value : String) : State :=
  { s with bindings := (name, value) :: s.bindings }

/-- The variables, with the status of the last command and the number of the program, which is
the only one. -/
def named (s : State) : Variables := ("?", toString s.status) :: ("$", "1") :: s.bindings

/-- The end of a program in a state. -/
def exited (s : State) (status : ExitStatus) : CommandEnding :=
  .exited ⟨status, s.output.reverse, s.errors.reverse⟩

/-- Goes on behind a shell of its own: its variables are lost, and leaving it left nothing else. -/
def rejoin (s : State) : Progress → Progress
  | .ok t | .error (.left t) => .ok { t with bindings := s.bindings }
  | .error e => .error e

/-- Goes on while statements still run that nothing waits for. They matter when someone reads what
they write, for until then the program has not ended. -/
def detach (s : State) (o : Outlets) (p : Progress) : Progress :=
  match s.rejoin p with
  | .ok t =>
    let held := if o.areOpen then max t.held t.slept else s.held
    .ok { t with input := s.input, slept := s.slept, held, status := 0 }
  | .error (.ended .timedOut) =>
    if o.areOpen then .error (.ended .timedOut) else .ok { s with status := 0 }
  | .error e => .error e

end State

/-! ### Commands -/

/-- The number that a text writes; zero when it writes none. -/
def number (text : String) : Nat := text.toNat?.getD 0

/-- The milliseconds that a number of seconds with a fraction writes. -/
def milliseconds (text : String) : Nat :=
  match text.splitOn "." with
  | [whole, fraction] => 1000 * number whole + number (String.ofList ((fraction ++ "000").toList.take 3))
  | _ => 1000 * number text

/-- Whether a condition holds. -/
def holds : List String → Bool
  | [a, "=", b] => a == b
  | [a, "!=", b] => a != b
  | [a, "-lt", b] => number a < number b
  | [a, "-le", b] => number a ≤ number b
  | [a, "-gt", b] => number b < number a
  | [a, "-ge", b] => number b ≤ number a
  | [a, "-eq", b] => number a == number b
  | [a, "-ne", b] => number a != number b
  | ["-n", a] => !a.isEmpty
  | ["-z", a] => a.isEmpty
  | [a] => !a.isEmpty
  | _ => false

/-- The signal that an option names, by number or by name. -/
def signalOf (option : String) : Nat :=
  let name := (option.replace "-" "").replace "SIG" ""
  name.toNat?.getD ((ExitStatus.signalNames.find? (·.2 == "SIG" ++ name)).elim 15 (·.1))

/-- The signals that a program does not notice unless it asks for them. -/
def unnoticed : List Nat := [0, 17, 18, 23, 28]

/-- Sends a signal to the program itself. -/
def raise (o : Outlets) (s : State) (signal : Nat) : Progress :=
  if unnoticed.contains signal then .ok (s.succeeded o [])
  else .error (.ended (s.exited (.signal signal)))

/-- Leaves the shell with the status that a text writes. -/
def leave (o : Outlets) (s : State) (status : String) : Stop :=
  .left (match status.toNat? with
    | some n => { s with status := n % 256 }
    | none => s.ended o 2 [] s!"sh: 1: exit: Illegal number: {status}\n")

/-- Sleeps until a time. That ends the program when the limit for the whole run is over. -/
def sleepUntil (x : Invocation) (o : Outlets) (s : State) (time : Nat) : Progress :=
  if x.limit.any (·.millis ≤ time) then .error (.ended .timedOut)
  else .ok (({ s with slept := max s.slept time } : State).succeeded o [])

/-- What is said of an argument of a command that reads files: there are no files. -/
def fileComplaint (command argument : String) : String :=
  if argument.startsWith "--" then
    s!"{command}: unrecognized option '{argument}'\nTry '{command} --help' for more information.\n"
  else s!"{command}: {argument}: No such file or directory\n"

/-- The numbers from one to another, each on a line. -/
def countLines (first last : Nat) : Bytes :=
  Bytes.utf8 (String.join ((List.range' first (last + 1 - first)).map fun n => s!"{n}\n"))

/-- The first lines of a text. -/
def firstLines : Nat → Bytes → Bytes
  | 0, _ => []
  | _ + 1, [] => []
  | n + 1, b :: rest => b :: firstLines (if b = 10 then n else n + 1) rest

/-- The bytes of a set: two with a hyphen between them stand for all from one to the other. -/
def byteSet : Bytes → Bytes
  | first :: 45 :: last :: rest =>
    (List.range' first.toNat (last.toNat + 1 - first.toNat)).map Nat.toUInt8 ++ byteSet rest
  | b :: rest => b :: byteSet rest
  | [] => []

/-- Replaces the bytes of a set by those at the same places of another one, whose last byte goes on
without end. -/
def replaceBytes (source target : Bytes) (text : Bytes) : Bytes :=
  text.map fun b =>
    match source.idxOf? b with
    | some i => target.getD i (target.getLastD b)
    | none => b

/-- Runs a command of one name and its arguments. -/
def simple (x : Invocation) (o : Outlets) (s : State) (name : String) (args : List String) :
    Progress :=
  match name, args with
  | "true", _ | ":", _ | "exec", _ | "cd", _ | "set", _ | "trap", _ | "ulimit", _ | "umask", _ =>
    .ok (s.succeeded o [])
  | "wait", _ => sleepUntil x o s (max s.slept s.held)
  | "false", _ => .ok (s.ended o 1 [] "")
  | "echo", "-n" :: args => .ok (s.succeeded o (unescape (" ".intercalate args)))
  | "echo", args => .ok (s.succeeded o (unescape (" ".intercalate args ++ "\n")))
  | "printf", format :: args => .ok (s.succeeded o (printf format args))
  | "pwd", _ => .ok (s.succeeded o (Bytes.utf8 (x.folder.getD "/" ++ "\n")))
  | "seq", [last] => .ok (s.succeeded o (countLines 1 (number last)))
  | "seq", [first, last] => .ok (s.succeeded o (countLines (number first) (number last)))
  | "[", args => .ok (s.ended o (!holds args.dropLast).toNat [] "")
  | "test", args => .ok (s.ended o (!holds args).toNat [] "")
  | "cat", args =>
    match args.find? (· ≠ "-") with
    | none => .ok (({ s with input := [] } : State).succeeded o s.input)
    | some a => .ok (s.ended o 1 [] (fileComplaint "cat" a))
  | "read", name :: _ =>
    let (line, rest) := s.input.span (· ≠ 10)
    .ok (({ s with input := rest.drop 1 }.set name (textOf line)).ended o rest.isEmpty.toNat [] "")
  | "wc", ["-c"] => .ok (s.succeeded o (Bytes.utf8 s!"{s.input.length}\n"))
  | "head", ["-c", count] => .ok (s.succeeded o (s.input.take (number count)))
  | "head", ["-c", count, "/dev/zero"] => .ok (s.succeeded o (List.replicate (number count) 0))
  | "head", ["-n", count] => .ok (s.succeeded o (firstLines (number count) s.input))
  | "tr", [source, target] =>
    .ok (s.succeeded o
      (replaceBytes (byteSet (unescape source)) (byteSet (unescape target)) s.input))
  | "sleep", [time] => sleepUntil x o s (s.slept + milliseconds time)
  | "exit", [] => .error (.left s)
  | "exit", status :: _ => .error (leave o s status)
  | "kill", "-s" :: signal :: _ => raise o s (signalOf signal)
  | "kill", [_] => raise o s 15
  | "kill", signal :: _ => raise o s (signalOf signal)
  | name, _ => .ok (s.ended o 127 [] s!"sh: 1: {name}: not found\n")

/-- The name of a program that is known by its path. -/
def baseName (program : String) : String :=
  if ["/bin", "/usr/bin"].contains ((Path.parent? program).getD "") then
    String.ofList ((Path.splitSlash program.toList).getLastD [])
  else program

/-- Sets the variables that the first of some fields set, at most so many, and tells the fields
that are left. -/
def assign : Nat → State → List String → State × List String
  | n + 1, s, field :: fields =>
    match field.splitOn "=" with
    | name :: value :: values => assign n (s.set name ("=".intercalate (value :: values))) fields
    | _ => (s, field :: fields)
  | _, s, fields => (s, fields)

/-- Runs the command that fields make. -/
def command (x : Invocation) (o : Outlets) (s : State) : List String → Progress
  | [] => .ok s
  | "exec" :: name :: args => do
    let s ← simple x o s (baseName name) args
    .error (.left s)
  | "export" :: fields => .ok (assign fields.length { s with status := 0 } fields).1
  | word :: args => simple x o s (baseName word) args

/-! ### Statements -/

/-- Whether the next statement runs after a status. -/
def Link.allows (status : Nat) : Link → Bool
  | .afterSuccess => status == 0
  | .afterFailure => status != 0
  | _ => true

/-- What is left to run behind an action with a link and a status. A pipe is left out as a whole. -/
def following (status : Nat) (link : Link) : Statements → Statements
  | [] => []
  | step :: rest =>
    if link.allows status then step :: rest
    else following status (if step.2.link = .pipe then link else step.2.link) rest

/-- Runs the scripts inside a word, so that it holds what they wrote without the line feeds at
its end. -/
def resolve (run : String → State → Progress) (s : State) (w : Word) : Except Stop (Word × State) :=
  w.foldlM (fun (done, s) piece => match piece with
    | .result script quoted => do
      let t ← s.rejoin (run script { s with output := [] })
      let text := textOf (t.output.dropWhile (· = 10)).reverse
      pure (done ++ [if quoted then .text text else .cut text], { t with output := s.output })
    | _ => pure (done ++ [piece], s)) ([], s)

/-- The fields that words stand for, and how many of the first words set variables. -/
def fieldsOf (run : String → State → Progress) (s : State) (words : List Word) :
    Except Stop (Nat × List String × State) := do
  let settings := (words.takeWhile Word.isAssignment).length
  let words := (words.take settings).map Word.quote ++ words.drop settings
  let (fields, s) ← words.foldlM (fun (fields, s) w => do
    let (w, s) ← resolve run s w
    pure (fields ++ w.fields s.named, s)) (([] : List String), s)
  pure (settings, fields, s)

/-- The arguments of a script by their numbers, the first of them its name. -/
def numbered (args : List String) : Variables :=
  let args := if args.isEmpty then ["sh"] else args
  ("#", toString (args.length - 1)) :: args.zipIdx.map fun (a, i) => (toString i, a)

/-- Runs statements, at most so many steps deep. One that does not end runs into the limit. -/
def runFrom (x : Invocation) : Nat → Outlets → Statements → State → Progress
  | 0, _, _, _ => .error (.ended .timedOut)
  | _ + 1, _, [], s => .ok s
  | n + 1, outlets, (action, tail) :: rest, s => do
    let isPipe := tail.link == .pipe
    let inner := tail.redirects.foldl Outlets.redirect
      (if isPipe then { outlets with output := .output } else outlets)
    let isBackground := tail.link == .background
    let readsNothing := isBackground || tail.redirects.contains .readsNothing
    let s₀ := if isPipe then { s with output := [] } else s
    let s₀ := if readsNothing then { s₀ with input := [] } else s₀
    let runScript (script : String) (s : State) : Progress :=
      runFrom x n { errors := outlets.errors } (Statements.read script) s
    let progress : Progress := match action with
      | .command words => do
        let (settings, fields, s) ← fieldsOf runScript s₀ words
        let (t, fields) := assign settings s fields
        if fields.isEmpty then
          pure (if words.any Word.hasResult then t else { t with status := 0 })
        else
          let u ← match fields with
            | "sh" :: "-c" :: script :: args =>
              t.rejoin (runFrom x n inner (Statements.read script)
                { t with bindings := numbered args ++ t.bindings })
            | _ => command x inner t fields
          pure (if settings = 0 then u else { u with bindings := s.bindings })
      | .group body => runFrom x n inner body s₀
      | .inner body => s₀.rejoin (runFrom x n inner body s₀)
      | .repeat_ test body => do
        let s ← runFrom x n inner test s₀
        if s.status = 0 then
          let s ← runFrom x n inner body s
          runFrom x n inner [(.repeat_ test body, {})] s
        else pure { s with status := 0 }
      | .each name words body => do
        let (_, fields, s) ← fieldsOf runScript s₀ words
        fields.foldlM (fun s value => runFrom x n inner body (s.set name value)) s
      | .choose test yes no => do
        let s ← runFrom x n inner test s₀
        if s.status = 0 then runFrom x n inner yes s
        else runFrom x n inner no { s with status := 0 }
    let s₁ ← if isBackground then s.detach inner progress
      else if isPipe then s₀.rejoin progress else progress
    let s₂ := if isPipe then { s₁ with input := s₁.output.reverse, output := s.output }
      else if readsNothing then { s₁ with input := s.input } else s₁
    let isExec := match action with
      | .command [w] => w.plain? == some "exec"
      | _ => false
    runFrom x n (if isExec then inner else outlets) (following s₂.status tail.link rest) s₂

/-- How deep the statements of a script may run. -/
def depth : Nat := 20000

/-- Runs a script. -/
def runScript (x : Invocation) (s : State) (script : String) : Progress :=
  runFrom x depth {} (Statements.read script) s

/-! ### Programs -/

/-- The programs that are known, besides the shell. -/
def programs : List String :=
  ["cat", "echo", "false", "head", "printf", "pwd", "seq", "sleep", "test", "tr", "true", "wc"]

/-- Paths of things that are no programs. -/
def nonPrograms : List String :=
  ["/", ".", "..", "./", "../", "/bin", "/dev/null", "/etc", "/etc/hosts", "/etc/passwd", "/tmp", "/usr"]

/-- Why a program that is not known cannot be started. -/
def startFault (program : String) : OsError :=
  if (Path.splitSlash program.toList).any fun part =>
    Disk.longestName < (String.ofList part).utf8ByteSize then .nameTooLong
  else if nonPrograms.contains program then .denied
  else .notFound

/-- Runs a program that is known. -/
def run? (x : Invocation) : Option Progress :=
  let s : State := { bindings := x.environment, input := x.input }
  match baseName x.program, x.arguments with
  | "sh", "-c" :: script :: args =>
    some (runScript x { s with bindings := numbered args ++ s.bindings } script)
  | "sh", _ => some (runScript x { s with input := [] } ((Bytes.ofUtf8? x.input).getD ""))
  | "echo", args => some (simple x {} s "echo" (args.map (·.replace "\\" "\\\\")))
  | name, args => if programs.contains name then some (simple x {} s name args) else none

/-- Answers an attempt to run a program, also when the caller gave up before. -/
def answer (cancelled : Bool) (x : Invocation) : CommandEnding :=
  match run? x with
  | none => .notStarted (startFault x.program)
  | some r =>
    if cancelled then .cancelled
    else match r with
      | .ok s | .error (.left s) =>
        if x.limit.any (·.millis ≤ s.held) then .timedOut else s.exited (.code s.status)
      | .error (.ended e) => e

end AgentRelay.StandIn
