import AgentRelay.Failure
import AgentRelay.Text.LowerCase

/-!
# What a failure means to an operator

A failure is summed up in a category, its cause on one line, and the next step to take.

* `Category.ofText` goes by words that occur in a text, `Category.ofFailure` prefers causes that
  keep their kind.
* `condense` puts a text on one line and drops the exit codes that commands leave behind.
* `summary` is the three lines.
-/

namespace AgentRelay

/-- What kind of failure it is. -/
inductive Category
  | webhook
  | auth
  | graphQl
  | runtime
  | unknown
  deriving DecidableEq

namespace Category

/-- The name of a category. -/
def name : Category → String
  | webhook => "webhook"
  | auth => "auth"
  | graphQl => "graphql"
  | runtime => "runtime"
  | unknown => "unknown"

/-- The next step for an operator. -/
def remedy : Category → String
  | webhook =>
    "Validate webhook payload contract/version and queue records, then replay the affected event."
  | auth => "Set a valid LINEAR_TOKEN (or LINEAR_API_TOKEN), verify workspace access, and retry."
  | graphQl =>
    "Review Linear GraphQL error details and mutation input, then retry once the API issue is resolved."
  | runtime =>
    "Inspect worker runtime logs under runner-logs/, fix the runner issue, and rerun the session step."
  | unknown =>
    "Check worker stderr and session logs, then retry; escalate with full error details if it persists."

/-- The words that speak for a category, for each category in order of precedence. -/
def markers : List (Category × List String) :=
  [(webhook,
    ["webhook", "queue file", "decode queued job line", "contract version",
      "missing job identifiers"]),
   (auth,
    ["linear_token", "linear_api_token", "token is required", "unauthorized", "forbidden",
      "http 401", "http 403", "bearer", "authorization", "permission denied"]),
   (graphQl,
    ["graphql", "agent activity mutation unsuccessful",
      "agent activity mutation missing activity id", "agent activity mutation http"]),
   (runtime,
    ["run linear session job", "runner timeout", "opencode stall", "deadline exceeded",
      "timed out"])]

/-- The first category of which a word occurs in the text, in any case. -/
def ofText (text : String) : Category :=
  let lowered := Text.lower text.toList
  match markers.find? fun m => m.2.any fun word => Text.occursIn word.toList lowered with
  | some (category, _) => category
  | none => unknown

/-- The category that a failed call to the tracker has by its kind. -/
def ofTracker? : Tracker.Error → Option Category
  | .tokenRequired => some auth
  | .status _ code _ => if code == 401 || code == 403 then some auth else none
  | .graphQl .. | .unsuccessful _ | .missingIdentifier .. => some graphQl
  | _ => none

/-- The category that a cause has by its kind. -/
def ofCause? : Cause → Option Category
  | .tracker error => ofTracker? error
  | .missingToken _ => some auth
  | .worker .queue _ | .worker .record _ => some webhook
  | _ => none

/-- The category of a failure: that of the first cause that has one by its kind, or else that of
the whole text. -/
def ofFailure (f : Failure) : Category := (f.chain.findSome? ofCause?).getD (ofText f.text)

end Category

namespace Diagnosis

/-- The text after a beginning. -/
def afterStart? (start : List Char) (cs : List Char) : Option (List Char) :=
  if start.isPrefixOf cs then some (cs.drop start.length) else none

/-- The words that announce an exit code. -/
def exitStatus : List Char := "exit status".toList

/-- A line that is an exit code and nothing else. -/
def isExitStatus (line : List Char) : Bool :=
  match afterStart? exitStatus line with
  | none => false
  | some rest =>
    let code := Text.trimChars (rest.dropWhile (· == ':'))
    !code.isEmpty && code.all Char.isDigit

/-- Cuts in front of the last occurrence of `part`. -/
def cutLast? (part : List Char) : List Char → Option (List Char × List Char)
  | [] => if part.isEmpty then some ([], []) else none
  | c :: cs =>
    match cutLast? part cs with
    | some (front, back) => some (c :: front, back)
    | none => if part.isPrefixOf (c :: cs) then some ([], c :: cs) else none

/-- Without the exit code that a line ends with. -/
def dropExitStatus (line : List Char) : List Char :=
  match cutLast? (": ".toList ++ exitStatus) line with
  | some (front, back) => if isExitStatus (back.drop 2) then Text.trimEnd front else line
  | none => line

/-- What a line contributes to the cause, if anything. -/
def part? (line : String) : Option String :=
  let line := Text.trimChars line.toList
  if line.isEmpty || isExitStatus line then none
  else
    let line := dropExitStatus line
    if line.isEmpty then none else some (String.ofList line)

/-- The text on one line. When nothing would be left, the text as it is, trimmed. -/
def condense (text : String) : String :=
  match (Text.lines text).filterMap part? with
  | [] => Text.trim text
  | parts => " | ".intercalate parts

/-- The summary of a failure: its category, its cause and the next step. -/
def summary (f : Failure) : String :=
  let category := Category.ofFailure f
  s!"Category: {category.name}\nCause: {condense f.text}\nNext step: {category.remedy}"

end Diagnosis
end AgentRelay
