import AgentRelay.Event.Basic
import AgentRelay.Json.Reader

/-!
# Events on the wire

For every part of an event its reader and, beside it, its written form. Written objects list their
members in the order of the fields; members that are empty or absent are left out where the
tracker leaves them out.
-/

namespace AgentRelay

open Json

/-- Reads an instant. -/
def Instant.reader : Reader Instant := fun n b =>
  match stringAs "an RFC 3339 formatted date and time string" n b with
  | .error e => .error e
  | .ok (s, rest) =>
    match Instant.read? s with
    | some t => .ok (t, rest)
    | none => .error .date

/-- The written instant. -/
def Instant.json (t : Instant) : Bytes := quote t.text

namespace ExternalUrl

/-- The fields of a link. -/
def fields : List (MemberReader ExternalUrl) :=
  [field "label" string fun v u => { u with label := v },
   field "url" string fun v u => { u with url := v }]

/-- Reads a link. -/
def reader : Reader ExternalUrl := record "ExternalUrl" fields {}

/-- The written link. -/
def json (u : ExternalUrl) : Bytes :=
  object [member "label" (quote u.label), member "url" (quote u.url)]

end ExternalUrl

namespace Issue

/-- The fields of an issue. -/
def fields : List (MemberReader Issue) :=
  [field "id" string fun v i => { i with id := v },
   field "identifier" string fun v i => { i with identifier := v },
   field "title" string fun v i => { i with title := v }]

/-- Reads an issue. -/
def reader : Reader Issue := record "AgentIssue" fields {}

/-- The written issue. -/
def json (i : Issue) : Bytes :=
  object (member "id" (quote i.id) ::
    (unlessEmpty "identifier" i.identifier ++ unlessEmpty "title" i.title))

end Issue

namespace Comment

/-- The fields of a comment. -/
def fields : List (MemberReader Comment) :=
  [field "id" string fun v c => { c with id := v },
   field "body" string fun v c => { c with body := v }]

/-- Reads a comment. -/
def reader : Reader Comment := record "AgentComment" fields {}

/-- The written comment. -/
def json (c : Comment) : Bytes := object [member "id" (quote c.id), member "body" (quote c.body)]

end Comment

namespace Guidance

/-- The fields of guidance. -/
def fields : List (MemberReader Guidance) := [field "body" string fun v g => { g with body := v }]

/-- Reads guidance. -/
def reader : Reader Guidance := record "AgentGuidance" fields {}

/-- The written guidance. -/
def json (g : Guidance) : Bytes := object [member "body" (quote g.body)]

end Guidance

namespace Content

/-- The fields of content. -/
def fields : List (MemberReader Content) :=
  [field "type" string fun v c => { c with kind := .ofName v },
   field "body" string fun v c => { c with body := v },
   field "action" string fun v c => { c with action := v },
   field "parameter" string fun v c => { c with parameter := v },
   field "result" (nullable string) fun v c => { c with result := v }]

/-- Reads content. -/
def reader : Reader Content := record "ActivityContent" fields {}

/-- The written content. -/
def json (c : Content) : Bytes :=
  object (member "type" (quote c.kind.name) ::
    (unlessEmpty "body" c.body ++ unlessEmpty "action" c.action ++
      unlessEmpty "parameter" c.parameter ++ optional "result" quote c.result))

end Content

namespace Activity

/-- The fields of an activity. -/
def fields : List (MemberReader Activity) :=
  [field "id" string fun v a => { a with id := v },
   field "content" Content.reader fun v a => { a with content := v }]

/-- Reads an activity. -/
def reader : Reader Activity := record "AgentActivity" fields {}

/-- The written activity. -/
def json (a : Activity) : Bytes :=
  object [member "id" (quote a.id), member "content" a.content.json]

end Activity

namespace Session

/-- The fields of a session. -/
def fields : List (MemberReader Session) :=
  [field "id" string fun v s => { s with id := v },
   field "state" string fun v s => { s with state := .ofName v },
   field "promptContext" string fun v s => { s with promptContext := v },
   field "externalUrls" (list ExternalUrl.reader) fun v s => { s with externalUrls := v },
   field "issue" (nullable Issue.reader) fun v s => { s with issue := v },
   field "comment" (nullable Comment.reader) fun v s => { s with comment := v },
   field "guidance" (nullable Guidance.reader) fun v s => { s with guidance := v }]

/-- Reads a session. -/
def reader : Reader Session := record "AgentSession" fields {}

/-- The written session. -/
def json (s : Session) : Bytes :=
  object ([member "id" (quote s.id), member "state" (quote s.state.name),
      member "promptContext" (quote s.promptContext)] ++
    unlessNil "externalUrls" ExternalUrl.json s.externalUrls ++
    optional "issue" Issue.json s.issue ++ optional "comment" Comment.json s.comment ++
    optional "guidance" Guidance.json s.guidance)

end Session

namespace SessionEvent

/-- Reads a signed integer of sixty-four bits. -/
def version : Reader Int64 := (integer "i64" Int64.minValue.toInt Int64.maxValue.toInt).map Int64.ofInt

/-- The fields of an event. -/
def fields : List (MemberReader SessionEvent) :=
  [field "id" string fun v e => { e with id := v },
   field "type" string fun v e => { e with kind := v },
   field "action" string fun v e => { e with action := .ofName v },
   field "createdAt" (nullable Instant.reader) fun v e => { e with createdAt := v },
   field "payloadVersion" version fun v e => { e with payloadVersion := v },
   field "agentSession" Session.reader fun v e => { e with session := v },
   field "agentActivity" (nullable Activity.reader) fun v e => { e with activity := v },
   field "previousComments" (list Comment.reader) fun v e => { e with previousComments := v }]

/-- Reads an event. -/
def reader : Reader SessionEvent := record "AgentSessionEvent" fields {}

/-- The written event. -/
def json (e : SessionEvent) : Bytes :=
  object ([member "id" (quote e.id), member "type" (quote e.kind),
      member "action" (quote e.action.name)] ++
    optional "createdAt" Instant.json e.createdAt ++
    [member "payloadVersion" (intText e.payloadVersion.toInt),
      member "agentSession" e.session.json] ++
    optional "agentActivity" Activity.json e.activity ++
    unlessNil "previousComments" Comment.json e.previousComments)

end SessionEvent
end AgentRelay
