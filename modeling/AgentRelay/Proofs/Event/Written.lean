import AgentRelay.Proofs.Event.Named
import AgentRelay.Proofs.Json.Integer
import AgentRelay.Proofs.Json.Record
import AgentRelay.Proofs.Time.Instant

/-!
# Written events are read back

Each part of an event fills its own fields when its written form is read, one member after the other.
Names on the wire come back as the values that they stand for. What a writer that knows more adds to any
of the objects is passed over.

* `doc` in each name space: the written form as a document, with the names that the reader of each
  object knows. `text_doc`: it is the written form.
* `reads_doc` in each name space: the document is read as what was written, whatever is added to it.
-/

namespace AgentRelay

open Json

/-- A written instant is read. -/
theorem Instant.reads_json (t : Instant) : Reads Instant.reader t.json t := by
  intro n rest _ _
  have hread := stringAs_quote "an RFC 3339 formatted date and time string" t.text n rest
  simp only [Instant.reader, Instant.json, hread, Instant.read?_text]

theorem Instant.opens_json (t : Instant) : Opens t.json := opens_quote t.text

namespace ExternalUrl

/-- The written link as a document. -/
def doc (u : ExternalUrl) : Doc :=
  .object (namesOf fields) [("label", .value (quote u.label)), ("url", .value (quote u.url))]

@[simp] theorem text_doc (u : ExternalUrl) : u.doc.text = u.json := rfl

theorem reads_doc (u : ExternalUrl) : ReadsDoc reader u.doc u := by
  have h := Fills.nil fields {}
  have h := h.field "label" rfl (reads_string u.label).doc (by simp)
  have h := h.field "url" rfl (reads_string u.url).doc (by simp)
  exact h.reads "ExternalUrl"

end ExternalUrl

namespace Issue

/-- The written issue as a document. -/
def doc (i : Issue) : Doc :=
  .object (namesOf fields) (("id", .value (quote i.id)) ::
    (Doc.unlessEmpty "identifier" i.identifier ++ Doc.unlessEmpty "title" i.title))

@[simp] theorem text_doc (i : Issue) : i.doc.text = i.json := by
  simp [doc, json, Doc.text, Doc.pieces]

theorem reads_doc (i : Issue) : ReadsDoc reader i.doc i := by
  have h := Fills.nil fields {}
  have h := h.field "id" rfl (reads_string i.id).doc (by simp)
  have h := h.unlessEmpty "identifier" i.identifier rfl (by simp) rfl
  have h := h.unlessEmpty "title" i.title rfl (by simp) rfl
  simpa [reader, doc] using h.reads "AgentIssue"

end Issue

namespace Comment

/-- The written comment as a document. -/
def doc (c : Comment) : Doc :=
  .object (namesOf fields) [("id", .value (quote c.id)), ("body", .value (quote c.body))]

@[simp] theorem text_doc (c : Comment) : c.doc.text = c.json := rfl

theorem reads_doc (c : Comment) : ReadsDoc reader c.doc c := by
  have h := Fills.nil fields {}
  have h := h.field "id" rfl (reads_string c.id).doc (by simp)
  have h := h.field "body" rfl (reads_string c.body).doc (by simp)
  exact h.reads "AgentComment"

end Comment

namespace Guidance

/-- The written guidance as a document. -/
def doc (g : Guidance) : Doc := .object (namesOf fields) [("body", .value (quote g.body))]

@[simp] theorem text_doc (g : Guidance) : g.doc.text = g.json := rfl

theorem reads_doc (g : Guidance) : ReadsDoc reader g.doc g := by
  have h := Fills.nil fields {}
  have h := h.field "body" rfl (reads_string g.body).doc (by simp)
  exact h.reads "AgentGuidance"

end Guidance

namespace Content

/-- The written content as a document. -/
def doc (c : Content) : Doc :=
  .object (namesOf fields) (("type", .value (quote c.kind.name)) ::
    (Doc.unlessEmpty "body" c.body ++ Doc.unlessEmpty "action" c.action ++
      Doc.unlessEmpty "parameter" c.parameter ++
      Doc.optional "result" (fun s => .value (quote s)) c.result))

@[simp] theorem text_doc (c : Content) : c.doc.text = c.json := by
  simp [doc, json, Doc.text, Doc.pieces]

theorem reads_doc {c : Content} (h : c.IsNamed) : ReadsDoc reader c.doc c := by
  have hkind : WireName.ofName c.kind.name = c.kind := h
  have h := Fills.nil fields {}
  have h := h.field "type" rfl (reads_string c.kind.name).doc (by simp)
  rw [hkind] at h
  have h := h.unlessEmpty "body" c.body rfl (by simp) rfl
  have h := h.unlessEmpty "action" c.action rfl (by simp) rfl
  have h := h.unlessEmpty "parameter" c.parameter rfl (by simp) rfl
  have h := h.optional "result" (a := c.result) rfl
    (fun x _ => ⟨(reads_string x).doc, (opens_quote x).doc⟩) (by simp) rfl
  simpa [reader, doc] using h.reads "ActivityContent"

end Content

namespace Activity

/-- The written activity as a document. -/
def doc (a : Activity) : Doc :=
  .object (namesOf fields) [("id", .value (quote a.id)), ("content", a.content.doc)]

@[simp] theorem text_doc (a : Activity) : a.doc.text = a.json := by
  simp [doc, json, Doc.text, Doc.pieces]

theorem reads_doc {a : Activity} (ha : a.IsNamed) : ReadsDoc reader a.doc a := by
  have h := Fills.nil fields {}
  have h := h.field "id" rfl (reads_string a.id).doc (by simp)
  have h := h.field "content" rfl (Content.reads_doc ha) (by simp)
  exact h.reads "AgentActivity"

end Activity

namespace Session

/-- The written session as a document. -/
def doc (s : Session) : Doc :=
  .object (namesOf fields) ([("id", .value (quote s.id)), ("state", .value (quote s.state.name)),
      ("promptContext", .value (quote s.promptContext))] ++
    Doc.unlessNil "externalUrls" ExternalUrl.doc s.externalUrls ++
    Doc.optional "issue" Issue.doc s.issue ++ Doc.optional "comment" Comment.doc s.comment ++
    Doc.optional "guidance" Guidance.doc s.guidance)

@[simp] theorem text_doc (s : Session) : s.doc.text = s.json := by
  simp [doc, json, Doc.text, Doc.pieces]

theorem reads_doc {s : Session} (hs : s.IsNamed) : ReadsDoc reader s.doc s := by
  have hstate : WireName.ofName s.state.name = s.state := hs
  have h := Fills.nil fields {}
  have h := h.field "id" rfl (reads_string s.id).doc (by simp)
  have h := h.field "state" rfl (reads_string s.state.name).doc (by simp)
  rw [hstate] at h
  have h := h.field "promptContext" rfl (reads_string s.promptContext).doc (by simp)
  have h := h.unlessNil "externalUrls" (l := s.externalUrls) rfl
    (fun u _ => ⟨u.reads_doc, opensDoc_object _ _⟩) (by simp) rfl
  have h := h.optional "issue" (a := s.issue) rfl
    (fun i _ => ⟨i.reads_doc, opensDoc_object _ _⟩) (by simp) rfl
  have h := h.optional "comment" (a := s.comment) rfl
    (fun c _ => ⟨c.reads_doc, opensDoc_object _ _⟩) (by simp) rfl
  have h := h.optional "guidance" (a := s.guidance) rfl
    (fun g _ => ⟨g.reads_doc, opensDoc_object _ _⟩) (by simp) rfl
  exact h.reads "AgentSession"

end Session

namespace SessionEvent

/-- A written version is read. -/
theorem reads_version (v : Int64) : Reads version (intText v.toInt) v := by
  have hlow : -(UInt64.size / 2 : Nat) ≤ v.toInt := v.le_toInt
  have hhigh : v.toInt < UInt64.size := Int.lt_trans v.toInt_lt (by decide)
  have h := (reads_integer "i64" ⟨v.minValue_le_toInt, v.toInt_le⟩ hlow hhigh).map Int64.ofInt
  rwa [Int64.ofInt_toInt] at h

/-- The written event as a document. -/
def doc (e : SessionEvent) : Doc :=
  .object (namesOf fields) ([("id", .value (quote e.id)), ("type", .value (quote e.kind)),
      ("action", .value (quote e.action.name))] ++
    Doc.optional "createdAt" (fun t => .value t.json) e.createdAt ++
    [("payloadVersion", .value (intText e.payloadVersion.toInt)), ("agentSession", e.session.doc)] ++
    Doc.optional "agentActivity" Activity.doc e.activity ++
    Doc.unlessNil "previousComments" Comment.doc e.previousComments)

@[simp] theorem text_doc (e : SessionEvent) : e.doc.text = e.json := by
  simp [doc, json, Doc.text, Doc.pieces]

theorem reads_doc {e : SessionEvent} (he : e.IsNamed) : ReadsDoc reader e.doc e := by
  have haction : WireName.ofName e.action.name = e.action := he.action
  have h := Fills.nil fields {}
  have h := h.field "id" rfl (reads_string e.id).doc (by simp)
  have h := h.field "type" rfl (reads_string e.kind).doc (by simp)
  have h := h.field "action" rfl (reads_string e.action.name).doc (by simp)
  rw [haction] at h
  have h := h.optional "createdAt" (a := e.createdAt) rfl
    (fun t _ => ⟨t.reads_json.doc, t.opens_json.doc⟩) (by simp) rfl
  have h := h.field "payloadVersion" rfl (reads_version e.payloadVersion).doc (by simp)
  have h := h.field "agentSession" rfl (Session.reads_doc he.session) (by simp)
  have h := h.optional "agentActivity" (a := e.activity) rfl
    (fun a ha => ⟨Activity.reads_doc (he.activity a ha), opensDoc_object _ _⟩) (by simp) rfl
  have h := h.unlessNil "previousComments" (l := e.previousComments) rfl
    (fun c _ => ⟨c.reads_doc, opensDoc_object _ _⟩) (by simp) rfl
  simpa [reader, doc] using h.reads "AgentSessionEvent"

/-- A written event is read back. -/
theorem readAll_json {e : SessionEvent} (he : e.IsNamed) : readAll reader e.json = .ok e := by
  rw [← text_doc]
  exact readAll_of_reads (reads_doc he).reads

end SessionEvent
end AgentRelay
