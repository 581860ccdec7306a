import AgentRelay.Proofs.Diagnosis.Category
import AgentRelay.Proofs.Trace
import AgentRelay.Proofs.Tracker.Reply
import AgentRelay.Proofs.Tracker.Request

/-!
# Calls to the tracker, one by one

A call that has nothing against its input asks whether its caller has given up, sends one request, and is
judged by the reply. Whatever it is answered, it takes one of three courses.

* `Course` are the courses, `course_of_trace` says that there are no others.
* `Client.post_confirmed`: when a post sends a request, what the request says, and when the post succeeds.
* `Client.reports_of_failing_reply`: what is made of a failing status.
-/

namespace AgentRelay

namespace Utterance

/-- A text that is needed is blank. -/
def IsLacking : Utterance → Prop
  | thought body | response body => Text.isBlankText body = true
  | action label parameter _ => Text.isBlankText label = true ∨ Text.isBlankText parameter = true

theorem check_eq_ok_iff {u : Utterance} : u.check = .ok () ↔ ¬ u.IsLacking := by
  cases u with
  | thought body => cases h : Text.isBlankText body <;> simp [check, IsLacking, h]
  | action label parameter result =>
    cases h : Text.isBlankText label <;> cases h' : Text.isBlankText parameter <;>
      simp [check, IsLacking, h, h']
  | response body => cases h : Text.isBlankText body <;> simp [check, IsLacking, h]

end Utterance

namespace Post

/-- The session, the key or a text that is needed is blank. -/
def IsLacking (p : Post) : Prop :=
  Text.isBlankText p.sessionId = true ∨ Text.isBlankText p.key = true ∨ p.utterance.IsLacking

theorem check_eq_ok_iff {p : Post} : p.check = .ok () ↔ ¬ p.IsLacking := by
  have hutterance := p.utterance.check_eq_ok_iff
  cases hsession : Text.isBlankText p.sessionId <;> cases hkey : Text.isBlankText p.key <;>
    simp [check, IsLacking, hsession, hkey, ← hutterance]
  cases p.utterance.check <;> simp [Except.mapError]

end Post

namespace Tracker

open Json

/-- The requests that were sent. -/
def sent (log : List (Sigma Answer)) : List Request :=
  log.filterMap fun x =>
    match x.1 with
    | .isCancelled => none
    | .exchange request => some request

/-- What is made of an exchange. -/
def Exchange.outcome {α : Type} (operation : String) (r : Reader α) : Exchange → Except Error (Option α)
  | .reply x => x.data operation r
  | .failed fault => .error (.transport operation fault)
  | .cancelled => .error (.cancelled operation)

variable {α β : Type} {c : Client} {operation : String} {r : Reader α} {body : Bytes}
  {log : List (Sigma Answer)}

/-- The courses that the sending of a body can take, each with its result. -/
inductive Course (c : Client) (operation : String) (r : Reader α) (body : Bytes) :
    List (Sigma Answer) → Except Error (Option α) → Prop
  | cancelled : Course c operation r body [⟨.isCancelled, true⟩] (.error (.cancelled operation))
  | unsendable (h : c.request? body = none) :
      Course c operation r body [⟨.isCancelled, false⟩] (.error (.transport operation Client.unsendable))
  | exchange {request : Request} (h : c.request? body = some request) (x : Exchange) :
      Course c operation r body [⟨.isCancelled, false⟩, ⟨.exchange request, x⟩] (x.outcome operation r)

theorem course_of_execute {result : Except Error (Option α)}
    (h : Script.Trace (c.execute operation r body) log result) : Course c operation r body log result := by
  unfold Client.execute at h
  obtain ⟨isCancelled, log, rfl, hgo⟩ := Script.trace_ask_iff.1 h
  cases isCancelled with
  | true =>
    obtain ⟨rfl, rfl⟩ := Script.trace_done_iff.1 hgo
    exact .cancelled
  | false =>
    cases hrequest : c.request? body with
    | none =>
      rw [hrequest] at hgo
      obtain ⟨rfl, rfl⟩ := Script.trace_done_iff.1 hgo
      exact .unsendable hrequest
    | some request =>
      rw [hrequest] at hgo
      obtain ⟨x, log, rfl, hdone⟩ := Script.trace_ask_iff.1 hgo
      obtain ⟨rfl, rfl⟩ := Script.trace_done_iff.1 hdone
      have hcourse : Course c operation r body _ (x.outcome operation r) := .exchange hrequest x
      cases x <;> exact hcourse

/-- A call that sends a body takes one of the courses and judges its result. -/
theorem course_of_trace {judge : Except Error (Option α) → Except Error β} {result : Except Error β}
    (h : Script.Trace ((c.execute operation r body).bind fun x => .done (judge x)) log result) :
    ∃ x, Course c operation r body log x ∧ result = judge x := by
  obtain ⟨log₁, x, log₂, rfl, hexecute, hdone⟩ := Script.trace_bind_iff.1 h
  obtain ⟨rfl, rfl⟩ := Script.trace_done_iff.1 hdone
  rw [List.append_nil]
  exact ⟨x, course_of_execute hexecute, rfl⟩

/-- The request was answered with the reply. -/
def Answered (log : List (Sigma Answer)) (request : Request) (reply : Reply) : Prop :=
  ⟨.exchange request, Exchange.reply reply⟩ ∈ log

/-- The caller had given up before anything was sent. -/
def GivenUp (log : List (Sigma Answer)) : Prop := ⟨.isCancelled, true⟩ ∈ log

/-- The reply confirms an activity: a status of success, and an envelope without errors that says that it
was done and to which id. -/
def Reply.Confirms (reply : Reply) (id : String) : Prop :=
  isSuccess reply.status = true ∧ reply.Arrives ∧
    ∃ envelope confirmation node, Decodes Client.postReader reply.body envelope ∧ envelope.errors = [] ∧
      envelope.data = some (some confirmation) ∧ confirmation.success = true ∧
      confirmation.id = some node ∧ Text.isBlankText node = false ∧ id = Text.trim node

theorem not_answered {isCancelled : Bool} {request : Request} {reply : Reply} :
    ¬ Answered [⟨.isCancelled, isCancelled⟩] request reply := by
  rintro (_ | ⟨_, ⟨⟩⟩)

theorem answered_iff {isCancelled : Bool} {request request' : Request} {x : Exchange} {reply : Reply} :
    Answered [⟨.isCancelled, isCancelled⟩, ⟨.exchange request, x⟩] request' reply ↔
      request' = request ∧ x = .reply reply := by
  constructor
  · rintro (_ | ⟨_, _ | ⟨_, ⟨⟩⟩⟩)
    exact ⟨rfl, rfl⟩
  · rintro ⟨rfl, rfl⟩
    exact .tail _ (.head _)

namespace Course

variable {x : Except Error (Option α)}

theorem sent_of_givenUp (h : Course c operation r body log x) (hlog : GivenUp log) : sent log = [] := by
  cases h with
  | cancelled => rfl
  | unsendable => rfl
  | exchange => obtain _ | ⟨_, _ | ⟨_, ⟨⟩⟩⟩ := hlog

/-- At most one request is sent, and with that body. -/
theorem sent_spec (h : Course c operation r body log x) :
    (sent log).length ≤ 1 ∧ ∀ request ∈ sent log, c.request? body = some request := by
  cases h with
  | cancelled => simp [sent]
  | unsendable => simp [sent]
  | exchange hrequest => simp [sent, hrequest]

/-- There is data just when a reply has data. -/
theorem eq_ok_iff (h : Course c operation r body log x) {data : Option α} :
    x = .ok data ↔ ∃ request reply, Answered log request reply ∧ reply.data operation r = .ok data := by
  cases h with
  | cancelled => simp [not_answered]
  | unsendable => simp [not_answered]
  | exchange _ x => cases x <;> simp [answered_iff, Exchange.outcome]

/-- The result of a course is that of its reply. -/
theorem eq_data (h : Course c operation r body log x) {request : Request} {reply : Reply}
    (hanswered : Answered log request reply) : x = reply.data operation r := by
  cases h with
  | cancelled => exact absurd hanswered not_answered
  | unsendable => exact absurd hanswered not_answered
  | exchange =>
    obtain ⟨-, rfl⟩ := answered_iff.1 hanswered
    rfl

end Course

namespace Client

/-! ### Posts -/

/-- The id that data confirms. -/
def confirmed (data : Option (Option Confirmation)) : Except Error String :=
  (data.join.getD {}).id? postOperation "activity"

theorem confirmed_eq_ok_iff {data : Option (Option Confirmation)} {id : String} :
    confirmed data = .ok id ↔ ∃ confirmation node, data = some (some confirmation) ∧
      confirmation.success = true ∧ confirmation.id = some node ∧ Text.isBlankText node = false ∧
      id = Text.trim node := by
  rw [confirmed, Confirmation.id?_eq_ok_iff]
  rcases data with _ | _ | confirmation <;> simp

theorem confirms_iff {reply : Reply} {id : String} : reply.Confirms id ↔
    ∃ data, reply.data postOperation postReader = .ok data ∧ confirmed data = .ok id := by
  simp only [Reply.data_eq_ok_iff, confirmed_eq_ok_iff]
  constructor
  · rintro ⟨hstatus, harrives, envelope, confirmation, node, hdecodes, herrors, hdata, hconfirmation⟩
    exact ⟨envelope.data, ⟨harrives, hstatus, .inr ⟨envelope, hdecodes, herrors, rfl⟩⟩, confirmation, node,
      hdata, hconfirmation⟩
  · rintro ⟨data, ⟨harrives, hstatus, hdata⟩, confirmation, node, rfl, hconfirmation⟩
    obtain ⟨-, ⟨⟩⟩ | ⟨envelope, hdecodes, herrors, hdata⟩ := hdata
    exact ⟨hstatus, harrives, envelope, confirmation, node, hdecodes, herrors, hdata, hconfirmation⟩

theorem bind_eq_ok_iff {x : Except Error α} {f : α → Except Error β} {b : β} :
    x.bind f = .ok b ↔ ∃ a, x = .ok a ∧ f a = .ok b := by
  cases x <;> simp [Except.bind]

variable {p : Post} {result : Except Error String}

/-- A post that lacks nothing takes one of the courses. -/
theorem course_of_post (h : Script.Trace (c.post p) log result) :
    p.IsLacking ∧ log = [] ∧ (∀ id, result ≠ .ok id) ∨
      ¬ p.IsLacking ∧ ∃ x, Course c postOperation postReader (postBody p) log x ∧
        result = x.bind confirmed := by
  unfold post at h
  split at h
  · rename_i e hcheck
    obtain ⟨rfl, rfl⟩ := Script.trace_done_iff.1 h
    refine .inl ⟨?_, rfl, by simp⟩
    by_contra hlacking
    rw [Post.check_eq_ok_iff.2 hlacking] at hcheck
    cases hcheck
  · rename_i hcheck
    exact .inr ⟨Post.check_eq_ok_iff.1 hcheck, course_of_trace h⟩

/-- A post that lacks nothing is answered in any way, once its token can be sent. -/
theorem exists_trace_post (hpost : p.check = .ok ()) (htoken : isHeaderText c.token = true) (x : Exchange) :
    ∃ request log, Script.Trace (c.post p) log ((x.outcome postOperation postReader).bind confirmed) ∧
      (∀ reply, x = .reply reply → Answered log request reply) := by
  obtain ⟨request, hrequest⟩ : ∃ request, c.request? (postBody p) = some request := ⟨_, if_pos htoken⟩
  refine ⟨request, [⟨.isCancelled, false⟩, ⟨.exchange request, x⟩], ?_,
    fun reply hx => answered_iff.2 ⟨rfl, hx⟩⟩
  unfold post execute
  rw [hpost, hrequest]
  refine Script.trace_ask_iff.2 ⟨false, _, rfl, ?_⟩
  refine Script.trace_ask_iff.2 ⟨x, [], rfl, ?_⟩
  cases x <;> exact .done _

theorem body_of_request? {body : Bytes} {request : Request} (h : c.request? body = some request) :
    request.body = body := by
  unfold request? at h
  split at h
  · cases h
    rfl
  · cases h

/-- What a post sends, and when it succeeds. -/
structure Posts (p : Post) (log : List (Sigma Answer)) (result : Except Error String) : Prop where
  /-- Nothing is sent for a post that lacks something, nor for a caller that has given up. -/
  sends_nothing : p.IsLacking ∨ GivenUp log → sent log = []
  sends_once : (sent log).length ≤ 1
  /-- A request tells the session as it was given, the content, and the id of the trimmed key. -/
  tells : ∀ request ∈ sent log, readAll PostRequest.reader request.body =
    .ok { query := postQuery, sessionId := p.sessionId, content := p.utterance.content,
          id := (ActivityId.ofKey (Text.trim p.key)).text }
  /-- It succeeds with the id that the reply confirms. -/
  ok_iff : ∀ id, result = .ok id ↔ ∃ request reply, Answered log request reply ∧ reply.Confirms id

/-- **Posts that succeed are confirmed.** Nothing is sent when something that is needed is blank or when
the caller has given up, and never more than one request. A request tells the session as it was given, the
content, and the id of the trimmed key. The post succeeds just when the request is answered with a reply
that confirms an activity, and then with the id that is confirmed. -/
theorem post_confirmed (h : Script.Trace (c.post p) log result) : Posts p log result := by
  obtain ⟨hlacking, rfl, herror⟩ | ⟨hlacking, x, hcourse, rfl⟩ := course_of_post h
  · refine ⟨fun _ => rfl, by simp [sent], by simp [sent], fun id => ?_⟩
    simp [herror, Answered]
  · obtain ⟨hone, hbody⟩ := hcourse.sent_spec
    refine ⟨fun h => ?_, hone, fun request hrequest => ?_, fun id => ?_⟩
    · obtain h | h := h
      · exact absurd h hlacking
      · exact hcourse.sent_of_givenUp h
    · rw [body_of_request? (hbody request hrequest)]
      exact readAll_postBody p
    · simp only [bind_eq_ok_iff, hcourse.eq_ok_iff, confirms_iff]
      constructor
      · rintro ⟨data, ⟨request, reply, hanswered, hdata⟩, hid⟩
        exact ⟨request, reply, hanswered, data, hdata, hid⟩
      · rintro ⟨request, reply, hanswered, data, hdata, hid⟩
        exact ⟨data, ⟨request, reply, hanswered, hdata⟩, hid⟩

/-- A client of a tracker. -/
def someClient : Client := ⟨"https://api.linear.app/graphql", "token"⟩

/-- A thought, its key with white space around it. -/
def someThought : Post := ⟨" session ", " key\n", .thought "hi"⟩

/-- A reply that confirms it, its body in two chunks. -/
def confirmation : Reply where
  status := 200
  chunks := [Bytes.utf8 "\x7b\"data\":\x7b\"agentActivityCreate\":\x7b\"success\":true,",
    Bytes.utf8 "\"agentActivity\":\x7b\"id\":\" a \"\x7d\x7d\x7d\x7d"]

theorem post_confirmed_someThought :
    ∃ log, Script.Trace (someClient.post someThought) log (.ok "a") ∧ (sent log).length ≤ 1 ∧
      ∃ request reply, Answered log request reply ∧ reply.Confirms "a" := by
  obtain ⟨request, log, h, -⟩ := exists_trace_post (c := someClient) (p := someThought) (by decide)
    (by decide +kernel) (.reply confirmation)
  have hresult : ((Exchange.reply confirmation).outcome postOperation postReader).bind confirmed = .ok "a" := by
    decide +kernel
  rw [hresult] at h
  have hposts := post_confirmed h
  exact ⟨log, h, hposts.sends_once, (hposts.ok_iff "a").1 rfl⟩

/-! ### Failing statuses -/

/-- What a failing status is reported as: as itself when the body is readable, and otherwise as a body
that cannot be decoded. -/
structure Reports (operation : String) (r : Reader α) (reply : Reply) (result : Except Error β) : Prop where
  status_iff : result = .error (.status operation reply.status (statusBody reply.status reply.body)) ↔
    IsReadable r reply.body
  decode_iff : (∃ fault, result = .error (.decode operation fault)) ↔ ¬ IsReadable r reply.body
  auth : reply.status = 401 ∨ reply.status = 403 → IsReadable r reply.body →
    ∃ e, result = .error e ∧ Category.ofFailure (.ofTracker e) = .auth

theorem reports_of_course {x : Except Error (Option α)} {f : Option α → Except Error β} {request : Request}
    {reply : Reply} (hcourse : Course c operation r body log x) (hanswered : Answered log request reply)
    (harrives : reply.Arrives) (hstatus : isSuccess reply.status = false)
    (herrors : ¬ HasErrors r reply.body) : Reports operation r reply (x.bind f) := by
  have hx := hcourse.eq_data hanswered
  rw [Reply.data_of_arrives harrives] at hx
  by_cases hread : IsReadable r reply.body
  · rw [hx, judge_of_readable hstatus herrors hread]
    refine ⟨by simp [Except.bind, hread], by simp [Except.bind, hread], fun hcode _ => ⟨_, rfl, ?_⟩⟩
    exact Category.ofFailure_ofTracker (by obtain h | h := hcode <;> simp [Category.ofTracker?, h])
  · obtain ⟨fault, hfault⟩ := judge_of_not_readable operation reply.status hread
    rw [hx, hfault]
    exact ⟨by simp [Except.bind, hread], by simp [Except.bind, hread], fun _ h => absurd h hread⟩

theorem course_of_link {u : LinkUpdate} {result : Except Error Unit}
    (h : Script.Trace (c.link u) log result) :
    log = [] ∨ ∃ x f, Course c linkOperation linkReader (linkBody u.sessionId (normalizedUrls u.urls)) log x ∧
      result = x.bind f := by
  unfold link at h
  split at h
  · exact .inl (Script.trace_done_iff.1 h).1
  · split at h
    · exact .inl (Script.trace_done_iff.1 h).1
    · obtain ⟨x, hcourse, rfl⟩ := course_of_trace h
      exact .inr ⟨x, _, hcourse, rfl⟩

/-- **Which failing statuses are reported.** For posts and for links alike, a reply with a failing status
and without errors of its own is reported as that status when its body is empty or an envelope. Any other
body is reported as one that cannot be decoded, and the status is lost. -/
theorem reports_of_failing_reply {request : Request} {reply : Reply} (hanswered : Answered log request reply)
    (harrives : reply.Arrives) (hstatus : isSuccess reply.status = false) :
    (∀ p result, Script.Trace (c.post p) log result → ¬ HasErrors postReader reply.body →
      Reports postOperation postReader reply result) ∧
    (∀ u result, Script.Trace (c.link u) log result → ¬ HasErrors linkReader reply.body →
      Reports linkOperation linkReader reply result) := by
  constructor
  · intro p result h herrors
    obtain ⟨-, rfl, -⟩ | ⟨-, x, hcourse, rfl⟩ := course_of_post h
    · cases hanswered
    · exact reports_of_course hcourse hanswered harrives hstatus herrors
  · intro u result h herrors
    obtain rfl | ⟨x, f, hcourse, rfl⟩ := course_of_link h
    · cases hanswered
    · exact reports_of_course hcourse hanswered harrives hstatus herrors

/-- A reply that refuses a token, with a body. -/
def refusal (body : String) : Reply := { status := 401, chunks := [Bytes.utf8 body] }

theorem reports_of_failing_reply_refusal : ∃ request log result,
    Script.Trace (someClient.post someThought) log result ∧
      Answered log request (refusal "\x7b\"data\":null\x7d") ∧
      result = .error (.status postOperation 401 "\x7b\"data\":null\x7d") := by
  obtain ⟨request, log, h, hanswered⟩ := exists_trace_post (c := someClient) (p := someThought) (by decide)
    (by decide +kernel) (.reply (refusal "\x7b\"data\":null\x7d"))
  have hanswered := hanswered _ rfl
  have herrors : ¬ HasErrors postReader (refusal "\x7b\"data\":null\x7d").body :=
    not_hasErrors_of_all (by decide +kernel)
  have hread : IsReadable postReader (refusal "\x7b\"data\":null\x7d").body :=
    isReadable_of_isOk (by decide +kernel)
  have hbody : statusBody 401 (refusal "\x7b\"data\":null\x7d").body = "\x7b\"data\":null\x7d" := by
    decide +kernel
  have hreports := (reports_of_failing_reply hanswered (by decide +kernel) rfl).1 _ _ h herrors
  refine ⟨request, log, _, h, hanswered, ?_⟩
  rw [hreports.status_iff.2 hread]
  exact congrArg (fun text => Except.error (Error.status postOperation 401 text)) hbody

/-- A refusal whose body is no envelope is reported as a body that cannot be decoded. -/
theorem not_reports_status : ¬ ∀ c p log result request reply, Script.Trace (post c p) log result →
    Answered log request reply → reply.broken = none → isSuccess reply.status = false →
    ¬ HasErrors postReader reply.body →
    result = .error (.status postOperation reply.status (statusBody reply.status reply.body)) := by
  intro hall
  obtain ⟨request, log, h, hanswered⟩ := exists_trace_post (c := someClient) (p := someThought) (by decide)
    (by decide +kernel) (.reply (refusal "Unauthorized"))
  have herrors : ¬ HasErrors postReader (refusal "Unauthorized").body :=
    not_hasErrors_of_all (by decide +kernel)
  have hstatus := hall _ _ _ _ _ _ h (hanswered _ rfl) rfl rfl herrors
  exact absurd hstatus (by decide +kernel)

end Client
end Tracker
end AgentRelay
