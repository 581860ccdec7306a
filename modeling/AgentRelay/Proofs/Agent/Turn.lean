import AgentRelay.Proofs.Session.Ends
import Mathlib.Data.List.Infix

/-!
# The course of work on a step

Work on a step takes one of two courses, whatever it is answered. Either its thought is not posted, and
nothing else happens; or the thought is posted, the agent runs once, the links that the run left are shown,
and one response says how the run went.

* `Turn.Course` are the two courses, `Turn.trace_iff_course` says that there are no others.
* `Turn.takes_course` adds what the result tells: it is good when the thought, the run and the response are,
  links do not count, and of two failures none is passed over.
-/

namespace AgentRelay

open Script

/-- The post is a response that says that work has finished. -/
def Post.SaysFinished (p : Post) : Prop :=
  ∃ body, p.utterance = .response body ∧ "Finished".toList <+: body.toList

namespace Turn

/-- A question of the work and what it was answered. -/
abbrev Call := Sigma (RunnerAnswer TurnAnswer)

/-- The thought that work begins with. -/
def thought (s : SessionStep) (r : Except Failure String) : Call := ⟨.think s.startThought, r⟩

/-- The run of the agent. -/
def ran (s : SessionStep) (run : Except Failure AgentOutcome) : Call :=
  ⟨.other (.runAgent s.agentRequest), run⟩

/-- Links are shown. -/
def linked (s : SessionStep) (urls : List ExternalUrl) (r : Except Tracker.Error Unit) : Call :=
  ⟨.other (.link ⟨s.sessionId, urls⟩), r⟩

/-- The response to a run. -/
def responded (s : SessionStep) (run : Except Failure AgentOutcome) (r : Except Tracker.Error String) : Call :=
  ⟨.other (.respond (s.endResponse (runFailure? run))), r⟩

/-- What is done about the links of a run: nothing, unless the run took place and left some. -/
inductive Links (s : SessionStep) : Except Failure AgentOutcome → List Call → Prop
  | failed (f : Failure) : Links s (.error f) []
  | none {outcome : AgentOutcome} (h : outcome.urls = []) : Links s (.ok outcome) []
  | shown {outcome : AgentOutcome} (h : outcome.urls ≠ []) (r : Except Tracker.Error Unit) :
      Links s (.ok outcome) [linked s outcome.urls r]

/-- The courses of work on a step, each with its result. -/
inductive Course (s : SessionStep) : List Call → Except Failure Unit → Prop
  | silent (f : Failure) : Course s [thought s (.error f)] (.error (f.context "emit linear thought activity"))
  | worked (id : String) {run : Except Failure AgentOutcome} {links : List Call} (h : Links s run links)
      (response : Except Tracker.Error String) :
      Course s (thought s (.ok id) :: ran s run :: (links ++ [responded s run response]))
        (result (runFailure? run) response)

variable {s : SessionStep} {log : List Call} {r : Except Failure Unit}

theorem trace_respond (s : SessionStep) (run : Except Failure AgentOutcome)
    (response : Except Tracker.Error String) :
    Trace (respond s (runFailure? run)) [responded s run response] (result (runFailure? run) response) :=
  trace_ask_iff.2 ⟨response, [], rfl, .done _⟩

theorem trace_respond_iff {run : Except Failure AgentOutcome} :
    Trace (respond s (runFailure? run)) log r ↔
      ∃ response, log = [responded s run response] ∧ r = result (runFailure? run) response := by
  constructor
  · intro h
    obtain ⟨response, rest, rfl, hdone⟩ := trace_ask_iff.1 h
    obtain ⟨rfl, rfl⟩ := trace_done_iff.1 hdone
    exact ⟨response, rfl, rfl⟩
  · rintro ⟨response, rfl, rfl⟩
    exact trace_respond s run response

theorem trace_execute_iff : Trace (execute s) log r ↔
    ∃ run links response, log = ran s run :: (links ++ [responded s run response]) ∧ Links s run links ∧
      r = result (runFailure? run) response := by
  constructor
  · intro h
    obtain ⟨run, rest, rfl, hrest⟩ := trace_ask_iff.1 h
    split at hrest
    · rename_i hurls
      obtain ⟨response, rfl, rfl⟩ := trace_respond_iff.1 hrest
      match run, hurls with
      | .error f, _ => exact ⟨.error f, [], response, rfl, .failed f, rfl⟩
      | .ok outcome, hurls => exact ⟨.ok outcome, [], response, rfl, .none hurls, rfl⟩
    · rename_i hurls
      obtain ⟨answer, rest, rfl, hrespond⟩ := trace_ask_iff.1 hrest
      obtain ⟨response, rfl, rfl⟩ := trace_respond_iff.1 hrespond
      match run, hurls with
      | .error f, hurls => exact absurd rfl hurls
      | .ok outcome, hurls => exact ⟨.ok outcome, _, response, rfl, .shown hurls answer, rfl⟩
  · rintro ⟨run, links, response, rfl, hlinks, rfl⟩
    have hrespond := trace_respond s run response
    refine trace_ask_iff.2 ⟨run, _, rfl, ?_⟩
    cases hlinks with
    | failed f => exact hrespond
    | none h =>
      simp only [runUrls, h]
      exact hrespond
    | shown h answer =>
      split
      · rename_i hurls
        exact absurd hurls h
      · exact trace_ask_iff.2 ⟨answer, _, rfl, hrespond⟩

/-- Work on a step takes the courses, and no others. -/
theorem trace_iff_course : Trace (turn s) log r ↔ Course s log r := by
  constructor
  · intro h
    obtain ⟨posted, rest, rfl, hrest⟩ := trace_ask_iff.1 h
    match posted, hrest with
    | .error f, hrest =>
      obtain ⟨rfl, rfl⟩ := trace_done_iff.1 hrest
      exact .silent f
    | .ok id, hrest =>
      obtain ⟨run, links, response, rfl, hlinks, rfl⟩ := trace_execute_iff.1 hrest
      exact .worked id hlinks response
  · intro hcourse
    cases hcourse with
    | silent f => exact trace_ask_iff.2 ⟨.error f, [], rfl, .done _⟩
    | @worked id run links hlinks response =>
      exact trace_ask_iff.2 ⟨.ok id, _, rfl, trace_execute_iff.2 ⟨run, links, response, rfl, hlinks, rfl⟩⟩

/-! ### What the result tells -/

theorem runFailure?_eq_none_iff {run : Except Failure AgentOutcome} :
    runFailure? run = none ↔ ∃ outcome, run = .ok outcome ∧ outcome.failed = false := by
  match run with
  | .error f => simp [runFailure?]
  | .ok outcome => cases h : outcome.failed <;> simp [runFailure?, AgentOutcome.failure?, h]

theorem result_eq_ok_iff {failure : Option Failure} {response : Except Tracker.Error String} :
    result failure response = .ok () ↔ failure = none ∧ ∃ id, response = .ok id := by
  cases failure <;> cases response <;> simp [result]

theorem finished_responseBody (action : String) : "Finished".toList <+: (responseBody action none).toList := by
  have hbody : responseBody action none =
      "Finished processing Linear session " ++ (Text.filled? action).getD "queued" ++ " step." := rfl
  have hstart : "Finished".toList <+: "Finished processing Linear session ".toList := by decide
  rw [hbody, String.append_assoc, String.toList_append]
  exact hstart.trans (List.prefix_append _ _)

theorem not_finished_responseBody (action : String) (f : Failure) :
    ¬ "Finished".toList <+: (responseBody action (some f)).toList := by
  have hbody : responseBody action (some f) =
      "Failed processing Linear session " ++ (Text.filled? action).getD "queued" ++ " step.\n" ++
        Diagnosis.summary f := rfl
  intro h
  rw [hbody, String.append_assoc, String.append_assoc, String.toList_append] at h
  have hstart := List.prefix_of_prefix_length_le h (List.prefix_append _ _) (by decide)
  exact absurd hstart (by decide)

theorem saysFinished_iff (s : SessionStep) {failure : Option Failure} :
    (s.endResponse failure).SaysFinished ↔ failure = none := by
  cases failure with
  | none => exact ⟨fun _ => rfl, fun _ => ⟨_, rfl, finished_responseBody s.action⟩⟩
  | some f =>
    constructor
    · rintro ⟨body, hbody, hfinished⟩
      obtain rfl := Utterance.response.inj hbody
      exact absurd hfinished (not_finished_responseBody s.action f)
    · rintro ⟨⟩

/-- A step whose run and response have both failed tells the causes of both. -/
theorem exists_text_of_failures (f : Failure) (e : Tracker.Error) :
    ∃ failure, result (some f) (.error e) = .error failure ∧ f.text.toList <:+: failure.text.toList ∧
      e.message.toList <:+: failure.text.toList := by
  have htext : "run linear session job: " ++ f.text ++ "; emit linear response activity: " ++ e.message =
      (Failure.note s!"run linear session job: {f.text}; emit linear response activity: {e.message}").text := rfl
  refine ⟨_, rfl, ?_, ?_⟩
  · rw [← htext]
    simp only [String.toList_append, List.append_assoc]
    exact List.infix_append' _ _ _
  · rw [← htext, String.toList_append]
    exact (List.suffix_append _ _).isInfix

/-- The same calls with another answer where links are shown. -/
def relinked (r : Except Tracker.Error Unit) (log : List Call) : List Call :=
  log.map fun x =>
    match x with
    | ⟨.other (.link u), _⟩ => ⟨.other (.link u), r⟩
    | x => x

/-- What showing links is answered changes nothing. -/
theorem Course.relinked (h : Course s log r) (answer : Except Tracker.Error Unit) :
    Course s (relinked answer log) r := by
  cases h with
  | silent f => exact .silent f
  | worked id hlinks response =>
    cases hlinks with
    | failed f => exact .worked id (.failed f) response
    | none h => exact .worked id (.none h) response
    | shown h _ => exact .worked id (.shown h answer) response

/-- Work is done just when every call of it succeeds. -/
theorem Course.eq_ok_iff (h : Course s log r) : r = .ok () ↔ ∀ x ∈ log, Succeeds x.1 x.2 := by
  cases h with
  | silent f =>
    simp [thought, Succeeds]
  | @worked id run links hlinks response =>
    have hlinks' : ∀ x ∈ links, Succeeds x.1 x.2 := by
      cases hlinks with
      | failed f => simp
      | none h => simp
      | shown h answer => simp [linked, Succeeds]
    rw [result_eq_ok_iff, runFailure?_eq_none_iff, List.forall_mem_cons, List.forall_mem_cons,
      List.forall_mem_append, List.forall_mem_singleton]
    constructor
    · rintro ⟨hrun, hresponse⟩
      exact ⟨⟨id, rfl⟩, hrun, hlinks', hresponse⟩
    · rintro ⟨-, hrun, -, hresponse⟩
      exact ⟨hrun, hresponse⟩

/-- The calls of a step whose thought was posted, and what its result tells. -/
structure Works (s : SessionStep) (log : List Call) (r : Except Failure Unit) (id : String)
    (run : Except Failure AgentOutcome) (links : List Call) (response : Except Tracker.Error String) : Prop where
  log_eq : log = thought s (.ok id) :: ran s run :: (links ++ [responded s run response])
  links : Links s run links
  /-- The response says that work has finished just when the run did not fail. -/
  finished_iff : (s.endResponse (runFailure? run)).SaysFinished ↔
    ∃ outcome, run = .ok outcome ∧ outcome.failed = false
  /-- When the run and the response have both failed, the causes of both are told. -/
  told : ∀ f e, runFailure? run = some f → response = .error e →
    ∃ failure, r = .error failure ∧ f.text.toList <:+: failure.text.toList ∧
      e.message.toList <:+: failure.text.toList

/-- What work on a step does, and when it is done. -/
structure TakesCourse (s : SessionStep) (log : List Call) (r : Except Failure Unit) : Prop where
  course : (∃ f, log = [thought s (.error f)]) ∨ ∃ id run links response, Works s log r id run links response
  ok_iff : r = .ok () ↔ ∀ x ∈ log, Succeeds x.1 x.2
  /-- The same calls with another answer where links are shown have the same result. -/
  relinked : ∀ answer, Trace (turn s) (relinked answer log) r

/-- **Work on a step takes one of two courses.** Without its thought there is nothing else. With it the agent
runs once, links are shown when the run took place and left some, and one response says that work has
finished just when the run did not fail. Work is done just when every call of it succeeds, whatever showing
links is answered, and when both the run and the response fail, the causes of both are told. -/
theorem takes_course (h : Trace (turn s) log r) : TakesCourse s log r := by
  have hcourse := trace_iff_course.1 h
  refine ⟨?_, hcourse.eq_ok_iff, fun answer => trace_iff_course.2 (hcourse.relinked answer)⟩
  cases hcourse with
  | silent f => exact .inl ⟨f, rfl⟩
  | @worked id run links hlinks response =>
    refine .inr ⟨id, run, links, response, rfl, hlinks, ?_, ?_⟩
    · rw [saysFinished_iff, runFailure?_eq_none_iff]
    · rintro f e hf rfl
      rw [hf]
      exact exists_text_of_failures f e

/-- A run that took place and failed, with a link to its log. -/
def halfDone : AgentOutcome :=
  { failed := true, reason := " out of luck\n", urls := [⟨"Runner log", "file:///logs/task.log"⟩] }

/-- The step of a prompt. -/
def somePrompt : SessionStep := .ofEvent { action := .known .prompted } "key"

theorem takes_course_halfDone : ∃ log failure, Trace (turn somePrompt) log (.error failure) ∧
    log.length = 4 ∧ "out of luck".toList <:+: failure.text.toList ∧
      "agent activity mutation cancelled".toList <:+: failure.text.toList := by
  have hlinks : Links somePrompt (.ok halfDone) [linked somePrompt halfDone.urls (.ok ())] :=
    .shown (by decide) _
  have htrace := trace_iff_course.2
    (.worked "thought-1" hlinks (.error (.cancelled "agent activity mutation")))
  obtain ⟨f, hlog⟩ | ⟨id, run, links, response, hworks⟩ := (takes_course htrace).course
  · cases congrArg List.length hlog
  · have hlog := hworks.log_eq
    have hrun : some (ran somePrompt (.ok halfDone)) = some (ran somePrompt run) :=
      congrArg (fun log => log[1]?) hlog
    cases hrun
    have hlast := congrArg List.getLast? hlog
    simp only [← List.cons_append, List.getLast?_append] at hlast
    cases hlast
    obtain ⟨failure, hfailure, hrunText, hresponseText⟩ := hworks.told _ _ rfl rfl
    exact ⟨_, failure, hfailure ▸ htrace, rfl, hrunText, hresponseText⟩

end Turn
end AgentRelay
