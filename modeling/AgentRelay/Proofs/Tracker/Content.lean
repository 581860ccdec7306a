import AgentRelay.Proofs.Tracker.Client

/-!
# Outgoing content

What the program says obeys the rules for what it is told. The client checks an utterance by itself and writes
it by itself. It refuses just what the rules for content refuse, and what it sends is read as the content.

* `Utterance.check_content`: an utterance is checked as its content.
* `Client.refused_iff`: a post is refused as its check says, and what it meets later is no refusal.
* `Client.post_obeys_rules` puts checking and writing side by side.
-/

namespace AgentRelay

open Json

namespace Utterance

/-- The rules for what is said are those for content. -/
theorem check_content (u : Utterance) : u.content.check = u.check := by
  cases u <;> rfl

/-- What is written is read as the content. -/
theorem readAll_json (u : Utterance) : readAll Content.reader u.json = .ok u.content := by
  rw [← text_doc]
  exact readAll_of_reads u.reads_doc.reads

end Utterance

/-- With a session and a key, a post is checked as its content. -/
theorem Post.check_eq_mapError {p : Post} (hsession : Text.isBlankText p.sessionId = false)
    (hkey : Text.isBlankText p.key = false) : p.check = p.utterance.content.check.mapError .content := by
  rw [check, hsession, hkey, p.utterance.check_content]
  rfl

namespace Tracker.Client

variable {c : Client} {p : Post} {log : List (Sigma Answer)} {result : Except Error String}

/-- A post is refused just as its check says. -/
theorem refused_iff (h : Script.Trace (c.post p) log result) {e : Error} (he : e.IsRefusal) :
    result = .error e ↔ p.check = .error e := by
  cases hcheck : p.check with
  | error e' =>
    unfold post at h
    rw [hcheck] at h
    obtain ⟨rfl, rfl⟩ := Script.trace_done_iff.1 h
    simp
  | ok _ =>
    have hfails := (yields_post_of_check hcheck c).of_trace h fun _ _ => trivial
    constructor
    · intro hresult
      exact absurd he (hfails e hresult).2
    · intro hrefused
      cases hrefused

/-- A post that lacks nothing is sent, unless its caller has given up or its token cannot stand in a header. -/
theorem exists_sent (h : Script.Trace (c.post p) log result) (hcheck : p.check = .ok ()) :
    GivenUp log ∨ isHeaderText c.token = false ∨ ∃ request, sent log = [request] := by
  obtain ⟨hlacking, -⟩ | ⟨-, x, hcourse, -⟩ := course_of_post h
  · exact absurd hlacking (Post.check_eq_ok_iff.1 hcheck)
  · cases hcourse with
    | cancelled => exact .inl (.head _)
    | unsendable hrequest =>
      refine .inr (.inl ?_)
      by_contra hheader
      rw [request?, if_pos (by simpa using hheader)] at hrequest
      cases hrequest
    | @exchange request _ x => exact .inr (.inr ⟨request, rfl⟩)

/-- What a post has to do with the rules for content. -/
structure ObeysRules (c : Client) (p : Post) (log : List (Sigma Answer)) (result : Except Error String) :
    Prop where
  /-- The rules refuse the content for the reason for which the post is refused. -/
  refused_iff : ∀ e, result = .error (.content e) ↔ p.utterance.content.check = .error e
  /-- Content that they accept is sent, unless the caller has given up or the token cannot stand in a header. -/
  sends : p.utterance.content.check = .ok () →
    GivenUp log ∨ isHeaderText c.token = false ∨ ∃ request, sent log = [request]
  /-- Only such content is sent, as it was given. -/
  tells : ∀ request ∈ sent log, p.utterance.content.check = .ok () ∧
    ∃ told, readAll PostRequest.reader request.body = .ok told ∧ told.content = p.utterance.content
  written : readAll Content.reader p.utterance.json = .ok p.utterance.content

/-- **Outgoing content obeys the rules for incoming content.** A post with a session and a key is refused for its
content just when the rules for content refuse that content, and for the same reason. Otherwise a request is
sent, unless the caller has given up or the token cannot stand in a header. The content that a request tells,
and the written content by itself, is the content that was given. -/
theorem post_obeys_rules (h : Script.Trace (c.post p) log result)
    (hsession : Text.isBlankText p.sessionId = false) (hkey : Text.isBlankText p.key = false) :
    ObeysRules c p log result := by
  have hcheck := Post.check_eq_mapError hsession hkey
  have hok : p.check = .ok () ↔ p.utterance.content.check = .ok () := by
    rw [hcheck]
    cases p.utterance.content.check <;> simp [Except.mapError]
  refine ⟨?_, ?_, ?_, p.utterance.readAll_json⟩
  · intro e
    rw [refused_iff h (e := .content e) trivial, hcheck]
    cases p.utterance.content.check <;> simp [Except.mapError]
  · intro hcontent
    exact exists_sent h (hok.2 hcontent)
  · intro request hrequest
    obtain ⟨-, rfl, -⟩ | ⟨hlacking, x, hcourse, -⟩ := course_of_post h
    · cases hrequest
    · have hbody := body_of_request? (hcourse.sent_spec.2 request hrequest)
      exact ⟨hok.1 (Post.check_eq_ok_iff.2 hlacking), _, hbody ▸ readAll_postBody p, rfl⟩

/-- An action with white space around its label and a result that is there and empty. -/
def someAction : Post := ⟨"session", "key", .action " run\n" "cargo test" (some "")⟩

theorem post_obeys_rules_someAction :
    ∃ log result, Script.Trace (someClient.post someAction) log result ∧ (∀ e, result ≠ .error (.content e)) ∧
      ∃ request ∈ sent log, ∃ told, readAll PostRequest.reader request.body = .ok told ∧
        told.content = { kind := .known .action, action := " run\n", parameter := "cargo test", result := some "" } := by
  obtain ⟨request, log, h, hanswered⟩ := exists_trace_post (c := someClient) (p := someAction) (by decide)
    (by decide +kernel) (.reply confirmation)
  have hobeys := post_obeys_rules h (by decide) (by decide)
  have hsent : request ∈ sent log := List.mem_filterMap.2 ⟨_, hanswered _ rfl, rfl⟩
  obtain ⟨hcheck, told, hread, hcontent⟩ := hobeys.tells request hsent
  refine ⟨log, _, h, ?_, request, hsent, told, hread, hcontent⟩
  intro e hresult
  rw [(hobeys.refused_iff e).1 hresult] at hcheck
  cases hcheck

end Tracker.Client
end AgentRelay
