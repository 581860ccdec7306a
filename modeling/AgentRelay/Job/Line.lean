import AgentRelay.Job.Basic

/-!
# Jobs on queue lines

A job is kept as one line of JSON.

* `Job.line` writes the line with its line feed.
* `Job.ofLine` reads a line, with ASCII white space around it. It refuses a job without any name
  before it looks at the version.
-/

namespace AgentRelay

open Json

namespace Job

/-- The fields of a job. -/
def fields : List (MemberReader Job) :=
  [field "id" string fun v j => { j with id := v },
   field "contractVersion" (integer "u32" 0 (UInt32.size - 1)) fun v j =>
     { j with contractVersion := v.toNat.toUInt32 },
   field "idempotencyKey" string fun v j => { j with idempotencyKey := v },
   field "sessionId" string fun v j => { j with sessionId := v },
   field "sessionStep" string fun v j => { j with sessionStep := v },
   field "deliveryId" (nullable string) fun v j => { j with deliveryId := v },
   field "receivedAt" Instant.reader fun v j => { j with receivedAt := v },
   field "event" SessionEvent.reader fun v j => { j with event := v },
   field "payload" Payload.reader fun v j => { j with payload := v }]

/-- Reads a job. -/
def reader : Reader Job := record "Job" fields {}

/-- The written job. -/
def json (j : Job) : Bytes :=
  object ([member "id" (quote j.id), member "contractVersion" (intText j.contractVersion.toNat),
      member "idempotencyKey" (quote j.idempotencyKey), member "sessionId" (quote j.sessionId),
      member "sessionStep" (quote j.sessionStep)] ++
    optional "deliveryId" quote j.deliveryId ++
    [member "receivedAt" j.receivedAt.json, member "event" j.event.json,
      member "payload" j.payload.json])

/-- The queue line of a job. -/
def line (j : Job) : Bytes := j.json ++ [10]

/-- Why a queue line is no job. -/
inductive LineError
  | malformed (fault : Fault)
  | missingIdentifiers
  | unsupportedVersion (found : UInt32)
  deriving DecidableEq

/-- The wording of a refusal. -/
def LineError.message : LineError → String
  | .malformed fault => "decode queued job line: " ++ fault.message
  | .missingIdentifiers => "decode queued job line: missing job identifiers"
  | .unsupportedVersion found => s!"unsupported queued job contract version {found}"

/-- The texts of the causes behind a refusal. -/
def LineError.sources : LineError → List String
  | .malformed fault => [fault.message]
  | _ => []

/-- A job that has no name at all. -/
def isNameless (j : Job) : Bool :=
  Text.isBlankText j.id && Text.isBlankText j.idempotencyKey && Text.isBlankText j.sessionId

/-- Reads a queue line. -/
def ofLine (line : Bytes) : Except LineError Job :=
  match readAll reader (Bytes.trimAscii line) with
  | .error fault => .error (.malformed fault)
  | .ok j =>
    if j.isNameless then .error .missingIdentifiers
    else if j.contractVersion ≠ currentVersion then .error (.unsupportedVersion j.contractVersion)
    else .ok j

end Job
end AgentRelay
