import AgentRelay.Settings.Address
import AgentRelay.Text.Blank
import AgentRelay.Text.LowerCase
import AgentRelay.Text.Printable
import AgentRelay.Time.Instant

/-!
# Settings

Settings come from named variables. A variable that is blank counts as not set, and every setting
has a default.

* `Settings.read` reads all settings, or reports the first variable that makes no sense.
* `LogFormat.ofText` reads a setting of its own, which is never refused.
-/

namespace AgentRelay

/-- What the programs are told at their start. -/
structure Settings where
  queuePath : String := "runner-logs/agent-session.jobs.jsonl"
  pollInterval : Span := .ofMillis 250
  /-- Drain the queue once and stop. -/
  once : Bool := false
  listen : SocketAddress := .v4 [0, 0, 0, 0] 8080
  webhookPath : String := "/linear/webhook"
  maxBodyBytes : Nat := 1048576
  dispatchCapacity : Nat := 64
  firstThought : Span := .ofSeconds 10
  endpoint : String := "https://api.linear.app/graphql"
  token : Option String := none
  agentCommand : List String := ["opencode", "run"]
  logDir : String := "runner-logs"
  /-- The longest that a run of the agent may take. -/
  agentTimeout : Option Span := none
  deriving DecidableEq, Inhabited

/-- Why settings are refused. -/
inductive SettingsError
  | invalid (name : String) (value : String) (reason : String)
  | missingToken
  deriving DecidableEq

/-- The wording of a refusal. -/
def SettingsError.message : SettingsError → String
  | .invalid name value reason => s!"invalid {name}={Text.quoted value}: {reason}"
  | .missingToken => "LINEAR_TOKEN (or LINEAR_API_TOKEN) must be set"

namespace Settings

/-! ### Values -/

/-- A number below `2^64` in decimal, with an optional plus sign. -/
def natural? (s : String) : Option Nat :=
  let digits := match s.toList with
    | '+' :: cs => cs
    | cs => cs
  if digits.isEmpty || !digits.all Char.isDigit then none
  else
    let n := digits.foldl (fun n c => n * 10 + (c.toNat - 48)) 0
    if n < UInt64.size then some n else none

/-- A number above zero. -/
def positive (name raw : String) : Except SettingsError Nat :=
  match natural? raw with
  | none => .error (.invalid name raw "expected an integer")
  | some n => if n == 0 then .error (.invalid name raw "must be greater than zero") else .ok n

/-- A span of milliseconds above zero. -/
def span (name raw : String) : Except SettingsError Span :=
  (positive name raw).map .ofMillis

/-- A boolean, in any case of its letters. -/
def boolean (name raw : String) : Except SettingsError Bool :=
  let word := Text.lowerAscii raw
  if ["1", "true", "yes", "on"].contains word then .ok true
  else if ["0", "false", "no", "off"].contains word then .ok false
  else .error (.invalid name raw "expected a boolean")

/-- An address to listen on. -/
def address (name raw : String) : Except SettingsError SocketAddress :=
  match SocketAddress.read? raw with
  | some address => .ok address
  | none => .error (.invalid name raw "expected host:port")

/-- A path of a URL. -/
def urlPath (name raw : String) : Except SettingsError String :=
  if raw.toList.head? == some '/' then .ok raw
  else .error (.invalid name raw "must start with '/'")

/-! ### All settings -/

/-- A variable: its name, and how its value changes the settings. -/
structure Variable where
  name : String
  apply : String → Settings → Except SettingsError Settings

/-- A variable whose value `read` reads and `store` stores. -/
def variableOf {α : Type} (name : String) (read : String → String → Except SettingsError α)
    (store : α → Settings → Settings) : Variable :=
  ⟨name, fun raw s => (read name raw).map fun v => store v s⟩

/-- Any text. -/
def anyText (_ raw : String) : Except SettingsError String := .ok raw

/-- The variables in the order in which they are read. Of the two for the token the last one that
is set wins. -/
def all : List Variable :=
  [variableOf "SESSIONFLOW_QUEUE_PATH" anyText fun v s => { s with queuePath := v },
   variableOf "SESSIONFLOW_POLL_INTERVAL_MS" span fun v s => { s with pollInterval := v },
   variableOf "SESSIONFLOW_ONCE" boolean fun v s => { s with once := v },
   variableOf "SESSIONFLOW_LISTEN_ADDR" address fun v s => { s with listen := v },
   variableOf "SESSIONFLOW_WEBHOOK_PATH" urlPath fun v s => { s with webhookPath := v },
   variableOf "SESSIONFLOW_MAX_BODY_BYTES" positive fun v s => { s with maxBodyBytes := v },
   variableOf "SESSIONFLOW_DISPATCH_CAPACITY" positive fun v s => { s with dispatchCapacity := v },
   variableOf "SESSIONFLOW_FIRST_THOUGHT_TIMEOUT_MS" span fun v s => { s with firstThought := v },
   variableOf "LINEAR_API_ENDPOINT" anyText fun v s => { s with endpoint := v },
   variableOf "LINEAR_API_TOKEN" anyText fun v s => { s with token := some v },
   variableOf "LINEAR_TOKEN" anyText fun v s => { s with token := some v },
   variableOf "SESSIONFLOW_AGENT_COMMAND" anyText fun v s =>
     { s with agentCommand := Text.words v },
   variableOf "SESSIONFLOW_RUNNER_LOG_DIR" anyText fun v s => { s with logDir := v },
   variableOf "SESSIONFLOW_AGENT_TIMEOUT_MS" span fun v s => { s with agentTimeout := some v }]

/-- Reads variables into settings. -/
def readFrom (lookup : String → Option String) : List Variable → Settings → Except SettingsError Settings
  | [], s => .ok s
  | v :: vs, s =>
    match (lookup v.name).bind Text.filled? with
    | none => readFrom lookup vs s
    | some raw =>
      match v.apply raw s with
      | .error e => .error e
      | .ok s => readFrom lookup vs s

/-- Reads all settings. -/
def read (lookup : String → Option String) : Except SettingsError Settings :=
  readFrom lookup all {}

end Settings

/-! ### The format of log lines -/

/-- How log lines are written. -/
inductive LogFormat
  /-- One JSON object a line. -/
  | json
  /-- For the eye. -/
  | pretty
  deriving DecidableEq

/-- The format that a setting names; any other text means JSON. -/
def LogFormat.ofText (s : String) : LogFormat :=
  let word := Text.lowerAscii (Text.trim s)
  if word == "pretty" || word == "text" then .pretty else .json

end AgentRelay
