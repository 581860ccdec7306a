import AgentRelay.Proofs.Event.Written
import AgentRelay.Proofs.Text.Trim
import AgentRelay.Tracker.Client

/-!
# What a request says

The tracker reads the body of a request by names. It finds there the session as it was given, the
content, and an id that only the trimmed key decides.

* `Utterance.reads_json`: an utterance is read as its content.
* `PostRequest` is what the body of a post tells a reader, `readAll_postBody` says what it tells.
-/

namespace AgentRelay

open Json

namespace Utterance

/-- The members of a written utterance. -/
def members : Utterance → List (String × Doc)
  | thought body => [("body", .value (quote body)), ("type", .value (quote "thought"))]
  | action label parameter result =>
    [("action", .value (quote label)), ("parameter", .value (quote parameter))] ++
      Doc.optional "result" (fun s => .value (quote s)) result ++ [("type", .value (quote "action"))]
  | response body => [("body", .value (quote body)), ("type", .value (quote "response"))]

/-- The written utterance as a document. -/
def doc (u : Utterance) : Doc := .object (namesOf Content.fields) u.members

@[simp] theorem text_doc (u : Utterance) : u.doc.text = u.json := by
  cases u <;> simp [doc, members, json, Doc.text, Doc.pieces]

/-- An utterance is read as its content. -/
theorem reads_doc (u : Utterance) : ReadsDoc Content.reader u.doc u.content := by
  have h := Fills.nil Content.fields {}
  cases u with
  | thought body =>
    have h := h.field "body" rfl (reads_string body).doc (by simp)
    have h := h.field "type" rfl (reads_string "thought").doc (by simp)
    exact h.reads "ActivityContent"
  | action label parameter result =>
    have h := h.field "action" rfl (reads_string label).doc (by simp)
    have h := h.field "parameter" rfl (reads_string parameter).doc (by simp)
    have h := h.optional "result" (a := result) rfl
      (fun x _ => ⟨(reads_string x).doc, (opens_quote x).doc⟩) (by simp) rfl
    have h := h.field "type" rfl (reads_string "action").doc (by simp)
    exact h.reads "ActivityContent"
  | response body =>
    have h := h.field "body" rfl (reads_string body).doc (by simp)
    have h := h.field "type" rfl (reads_string "response").doc (by simp)
    exact h.reads "ActivityContent"

end Utterance

namespace Tracker

/-- What the body of a request for an activity tells. -/
structure PostRequest where
  query : String := ""
  sessionId : String := ""
  content : Content := {}
  id : String := ""

namespace PostRequest

/-- The fields of the input. -/
def inputFields : List (MemberReader PostRequest) :=
  [field "agentSessionId" string fun v r => { r with sessionId := v },
   field "content" Content.reader fun v r => { r with content := v },
   field "id" string fun v r => { r with id := v }]

/-- The one variable. -/
def variableFields : List (MemberReader PostRequest) :=
  [field "input" (record "AgentActivityCreateInput" inputFields {}) fun v _ => v]

/-- The fields of the request. -/
def fields : List (MemberReader PostRequest) :=
  [field "query" string fun v r => { r with query := v },
   field "variables" (record "Variables" variableFields {}) fun v r => { v with query := r.query }]

/-- Reads a request. -/
def reader : Reader PostRequest := record "Request" fields {}

end PostRequest

namespace Client

theorem ofKey_trim (key : String) : ActivityId.ofKey (Text.trim key) = ActivityId.ofKey key := by
  rw [ActivityId.ofKey, ActivityId.ofKey, Text.trim_trim]

/-- The body of a post names the mutation, the session as it was given, the content, and the id of the
trimmed key. -/
theorem readAll_postBody (p : Post) : readAll PostRequest.reader (postBody p) =
    .ok { query := postQuery, sessionId := p.sessionId, content := p.utterance.content,
          id := (ActivityId.ofKey (Text.trim p.key)).text } := by
  rw [ofKey_trim]
  have h := Fills.nil PostRequest.inputFields {}
  have h := h.field "agentSessionId" rfl (reads_string p.sessionId).doc (by simp)
  have h := h.field "content" rfl p.utterance.reads_doc (by simp)
  have h := h.field "id" rfl (reads_string (ActivityId.ofKey p.key).text).doc (by simp)
  have hinput := h.reads "AgentActivityCreateInput"
  have h := Fills.nil PostRequest.variableFields {}
  have hvariables := (h.field "input" rfl hinput (by simp)).reads "Variables"
  have h := Fills.nil PostRequest.fields {}
  have h := h.field "query" rfl (reads_string postQuery).doc (by simp)
  have h := (h.field "variables" rfl hvariables (by simp)).reads "Request"
  have hread := readAll_of_reads h.reads
  simpa [Doc.text, Doc.pieces, postBody, ActivityId.json, PostRequest.reader] using hread

end Client
end Tracker
end AgentRelay
