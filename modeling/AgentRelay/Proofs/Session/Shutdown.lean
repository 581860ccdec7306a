import AgentRelay.Proofs.Session.OwnKeys
import AgentRelay.Service

/-!
# A step that is cancelled

The context of a step may be cancelled at any moment, while its work goes through a client of the tracker and
an agent that does as it likes. Every call of the client looks at the context before its request goes out. So
when the context is cancelled before the request for the response goes out, that request never does, and the
step ends with a failure.

* `StepQuestion` is what a step asks outside; `SessionStep.scene` is a step under way that goes through a
  client, question by question, beside its race.
* `Scene.Step` is what may happen next, `Scene.Run` any number of such steps.
* `Guarded` is work whose response the context still holds back, `SessionStep.guarded_calls` says that all work
  is at its start. `Guarded.step` keeps it so in a cancelled context.
* `SessionStep.Interrupted` are the results of a step that is cancelled in time, `Interrupted.fails` and
  `Scene.exists_end` what becomes of it.
-/

namespace AgentRelay

open Script

/-- What processing a step asks outside. -/
inductive StepQuestion
  /-- A call to the tracker asks; with the post, if the call is one. -/
  | tracker (post : Option Post) (question : Tracker.Question)
  | agent (request : AgentRequest)
  | deadlinePasses (span : Span)
  | now

/-- What it is answered. -/
def StepAnswer : StepQuestion → Type
  | .tracker _ q => Tracker.Answer q
  | .agent _ => Except Failure AgentOutcome
  | .deadlinePasses _ => Bool
  | .now => Instant

/-- A part of processing a step. -/
abbrev StepScript := Script StepQuestion StepAnswer

/-- The parts that ask everything outside; calls to the tracker go through a client. -/
def Service.Parts.asking (client : Tracker.Client) : Service.Parts StepScript where
  post p := (client.post p).run fun q => .ask (.tracker (some p) q) .done
  link u := (client.link u).run fun q => .ask (.tracker none q) .done
  runAgent request := .ask (.agent request) .done
  deadlinePasses span := .ask (.deadlinePasses span) .done
  now := .ask .now .done

/-- Work on a step, question by question. -/
def SessionStep.calls (s : SessionStep) (client : Tracker.Client) : StepScript (Except Failure Unit) :=
  (turn s).run (Service.Parts.asking client).surroundings.answer

/-- The post that goes out with a question. -/
def StepQuestion.sent? : StepQuestion → Option Post
  | .tracker (some p) (.exchange _) => some p
  | _ => none

/-- The context answers whether it is cancelled. Everything else may be answered in any way. -/
def StepAnswer.Fits (stopped : Bool) : Sigma StepAnswer → Prop
  | ⟨.tracker _ .isCancelled, r⟩ => r = stopped
  | _ => True

/-! ### A step under way -/

/-- A step under way: its race, if it has one, what is left of its work, and whether its context is
cancelled. -/
structure Scene where
  race : Option Deadline.Race
  work : StepScript (Except Failure Unit)
  stopped : Bool := false

/-- The context is cancelled. -/
def Scene.cancel (x : Scene) : Scene := { x with stopped := true }

/-- All questions of the work have been answered. -/
def Scene.finish (x : Scene) (answer : (q : StepQuestion) → StepAnswer q) : Scene :=
  { x with work := .done (x.work.eval answer) }

/-- The start of a step, unless it is refused. -/
def SessionStep.scene (s : SessionStep) (client : Tracker.Client) (config : DeadlineConfig)
    (records : Bool) : Except SessionError Scene :=
  match s.route config records with
  | .refuse e => .error e
  | .work => .ok { race := none, work := s.calls client }
  | .watch race => .ok { race := some race.start, work := s.calls client }

namespace Scene

/-- What is seen of a step. -/
inductive Event
  /-- The context is cancelled. -/
  | stopped
  | asked (x : Sigma StepAnswer)
  /-- The race is told of a thought. -/
  | observed
  | raced (deed : Deadline.Deed)

/-- The post that goes out. -/
def Event.sent? : Event → Option Post
  | asked x => x.1.sent?
  | raced (.posts p) => some p
  | raced (.records v) => some (Deadline.recordPost v)
  | _ => none

/-- The posts that went out. -/
def sent (log : List Event) : List Post := log.filterMap Event.sent?

@[simp] theorem sent_append (log log' : List Event) : sent (log ++ log') = sent log ++ sent log' :=
  List.filterMap_append

/-- What may happen. -/
inductive Step : Scene → List Event → Scene → Prop
  | stops (x : Scene) : Step x [.stopped] x.cancel
  | asks {race : Option Deadline.Race} {q : StepQuestion}
      {next : StepAnswer q → StepScript (Except Failure Unit)} {stopped : Bool} {r : StepAnswer q}
      (fits : StepAnswer.Fits stopped ⟨q, r⟩) :
      Step ⟨race, .ask q next, stopped⟩ [.asked ⟨q, r⟩] ⟨race, next r, stopped⟩
  | observes {race : Deadline.Race} {work : StepScript (Except Failure Unit)} {stopped : Bool} :
      Step ⟨some race, work, stopped⟩ [.observed] ⟨some race.markObserved, work, stopped⟩
  | races {race race' : Deadline.Race} {work : StepScript (Except Failure Unit)} {stopped : Bool}
      {expired : Bool} {deeds : List Deadline.Deed} (moves : race.Moves stopped expired deeds race') :
      Step ⟨some race, work, stopped⟩ (deeds.map .raced) ⟨some race', work, stopped⟩

/-- Steps in a row; the events are in the order in which they happened. -/
inductive Run (x : Scene) : List Event → Scene → Prop
  | start : Run x [] x
  | step {log events : List Event} {y z : Scene} (past : Run x log y) (next : Step y events z) :
      Run x (log ++ events) z

/-- The result of the step. Its work must be done; the race is waited for only as long as the context is not
cancelled. -/
def result? (x : Scene) : Option (Except SessionError Unit) :=
  match x.work with
  | .ask _ _ => none
  | .done run =>
    match x.race with
    | none => some (run.mapError .prompted)
    | some race => (race.wait x.stopped).map (joinResults run)

variable {x y z : Scene} {log log' events : List Event}

theorem Run.trans (run : Run x log y) (run' : Run y log' z) : Run x (log ++ log') z := by
  induction run' with
  | start => rwa [List.append_nil]
  | step _ next ih =>
    rw [← List.append_assoc]
    exact ih.step next

end Scene

/-! ### Work that is held back -/

/-- The work is at a request under the key. -/
def Sending (key : String) : StepScript (Except Failure Unit) → Prop
  | .done _ => False
  | .ask q _ => ∃ p, q.sent? = some p ∧ p.key = key

/-- No request under the key goes out but behind a look at a context that is not cancelled, and without that
request the work fails. -/
def Guarded (key : String) : StepScript (Except Failure Unit) → Prop
  | .done run => ∃ f, run = .error f
  | .ask q next => (∀ p, q.sent? = some p → p.key ≠ key) ∧
      ∀ r, Guarded key (next r) ∨ ¬ StepAnswer.Fits true ⟨q, r⟩ ∧ Sending key (next r)

namespace Guarded

variable {key : String} {α : Type}

/-- Behind questions of other calls. -/
theorem bind {s : StepScript α} {f : α → StepScript (Except Failure Unit)}
    (hs : ∀ q, s.Asks q → ∀ p, q.sent? = some p → p.key ≠ key) (hf : ∀ a, Guarded key (f a)) :
    Guarded key (s.bind f) := by
  induction s with
  | done a => exact hf a
  | ask q next ih => exact ⟨hs q (.now next), fun r => .inl (ih r fun q' hq' => hs q' (.later r hq'))⟩

/-- Work that is held back is not at the request itself. -/
theorem not_sending {work : StepScript (Except Failure Unit)} (h : Guarded key work) : ¬ Sending key work := by
  cases work with
  | done run => exact id
  | ask q next =>
    rintro ⟨p, hp, hkey⟩
    exact h.1 p hp hkey

/-- Everything that a call asks, it asks as this call. -/
theorem exists_of_asks {post : Option Post} {call : Script Tracker.Question Tracker.Answer α} {q : StepQuestion}
    (h : (call.run fun q => (.ask (.tracker post q) .done : StepScript (Tracker.Answer q))).Asks q) :
    ∃ q', q = .tracker post q' := by
  induction call with
  | done a => cases h
  | ask q' next ih =>
    cases h with
    | now => exact ⟨q', rfl⟩
    | later r rest => exact ih r rest

/-- The post that goes out with a call is the one that the call is for. -/
theorem eq_of_sent? {post : Option Post} {q : Tracker.Question} {p : Post}
    (h : (StepQuestion.tracker post q).sent? = some p) : post = some p := by
  unfold StepQuestion.sent? at h
  split at h
  · rename_i heq
    obtain ⟨rfl, -⟩ := StepQuestion.tracker.inj heq
    exact h
  · cases h

variable {client : Tracker.Client}

/-- Behind a thought under another key. -/
theorem bind_think {p : Post} {f : Except Failure String → StepScript (Except Failure Unit)}
    (hkey : p.key ≠ key) (hf : ∀ r, Guarded key (f r)) :
    Guarded key (((Service.Parts.asking client).surroundings.think p).bind f) := by
  have hassoc : ((Service.Parts.asking client).surroundings.think p).bind f =
      ((Service.Parts.asking client).post p).bind fun r => f (Service.asFailure r) :=
    bind_assoc ((Service.Parts.asking client).post p) (fun r => .done (Service.asFailure r)) f
  rw [hassoc]
  refine bind (fun q hq p' hp' => ?_) fun r => hf _
  obtain ⟨q', rfl⟩ := exists_of_asks hq
  exact Option.some.inj (eq_of_sent? hp') ▸ hkey

/-- Behind a link. -/
theorem bind_link {u : LinkUpdate} {f : Except Tracker.Error Unit → StepScript (Except Failure Unit)}
    (hf : ∀ r, Guarded key (f r)) : Guarded key (((Service.Parts.asking client).link u).bind f) := by
  refine bind (fun q hq p' hp' => ?_) hf
  obtain ⟨q', rfl⟩ := exists_of_asks hq
  cases eq_of_sent? hp'

/-- A post under the key itself: without it the work fails. -/
theorem post {p : Post} {f : Except Tracker.Error String → StepScript (Except Failure Unit)}
    (hf : ∀ e, Guarded p.key (f (.error e))) :
    Guarded p.key (((Service.Parts.asking client).post p).bind f) := by
  unfold Service.Parts.asking Tracker.Client.post Tracker.Client.execute
  dsimp only
  generalize client.request? (Tracker.Client.postBody p) = request
  split
  · exact hf _
  · refine ⟨nofun, fun (stopped : Bool) => ?_⟩
    -- the request goes out only when there is one and the context is not cancelled
    cases stopped with
    | true => exact .inl (hf _)
    | false =>
      cases request with
      | none => exact .inl (hf _)
      | some request => exact .inr ⟨nofun, p, rfl, rfl⟩

end Guarded

namespace SessionStep

variable {s : SessionStep} {client : Tracker.Client}

theorem guarded_respond (failure : Option Failure) :
    Guarded s.responseKey
      ((Turn.respond s failure).run (Service.Parts.asking client).surroundings.answer) := by
  refine Guarded.post (p := s.endResponse failure) fun e => ?_
  cases failure with
  | none => exact ⟨_, rfl⟩
  | some run => exact ⟨_, rfl⟩

theorem guarded_execute :
    Guarded s.responseKey ((Turn.execute s).run (Service.Parts.asking client).surroundings.answer) := by
  refine ⟨nofun, fun (r : Except Failure AgentOutcome) => .inl ?_⟩
  change Guarded s.responseKey (Script.run _ _)
  beta_reduce
  split
  · exact guarded_respond _
  · exact Guarded.bind_link fun _ => guarded_respond _

/-- All work is held back by its context at its start. -/
theorem guarded_calls (s : SessionStep) (client : Tracker.Client) :
    Guarded s.responseKey (s.calls client) := by
  have hkey : s.startThought.key ≠ s.responseKey :=
    Job.append_ne (by decide) (by decide) (by decide)
  refine Guarded.bind_think hkey fun r => ?_
  cases r with
  | ok id => exact guarded_execute
  | error e => exact ⟨_, rfl⟩

end SessionStep

/-! ### The moves of a step -/

namespace Scene

variable {x y z : Scene} {log log' events : List Event} {key : String} {s : SessionStep}

/-- A request under the key has gone out. -/
def Started (key : String) (x : Scene) (log : List Event) : Prop :=
  (∃ p ∈ sent log, p.key = key) ∨ Sending key x.work

/-- Nothing has gone out at the start. -/
theorem not_started (h : Guarded key x.work) : ¬ Started key x [] := by
  rintro (⟨p, hp, -⟩ | hsending)
  · cases hp
  · exact h.not_sending hsending

theorem Started.step (h : Started key x log) (next : x.Step events y) : Started key y (log ++ events) := by
  rcases h with ⟨p, hp, hkey⟩ | hsending
  · exact .inl ⟨p, by simp [hp], hkey⟩
  · cases next with
    | stops => exact .inr hsending
    | observes => exact .inr hsending
    | races => exact .inr hsending
    | asks fits =>
      obtain ⟨p, hp, hkey⟩ := hsending
      exact .inl ⟨p, by simp [sent, Event.sent?, hp], hkey⟩

/-- As long as the request has not gone out, the work is held back. -/
theorem Run.guarded (run : x.Run log y) (h : Guarded key x.work) (early : ¬ Started key y log) :
    Guarded key y.work := by
  induction run with
  | start => exact h
  | step _ next ih =>
    have hguarded := ih fun hstarted => early (hstarted.step next)
    cases next with
    | stops => exact hguarded
    | observes => exact hguarded
    | races => exact hguarded
    | @asks race q rest stopped r fits =>
      exact (hguarded.2 r).resolve_right fun hsending => early (.inr hsending.2)

/-- A race sends nothing under the key of a response. -/
theorem key_ne_of_raced {race race' : Deadline.Race} {stopped expired : Bool} {deeds : List Deadline.Deed}
    (moves : race.Moves stopped expired deeds race') {p : Post}
    (hp : p ∈ sent (deeds.map .raced)) : p.key ≠ s.responseKey := by
  have hfallback : (race.fallback).key ≠ s.responseKey :=
    Job.append_ne (by decide) (by decide) (by decide)
  have hrecord (v : Violation) : (Deadline.recordPost v).key ≠ s.responseKey :=
    Job.append_ne (by decide) (by decide) (by decide)
  cases moves.shift with
  | posts =>
    obtain rfl : race.fallback = p := by simpa [sent, Event.sent?] using hp
    exact hfallback
  | records _ _ now cause =>
    obtain rfl : Deadline.recordPost (race.violation now cause) = p := by
      simpa [sent, Event.sent?] using hp
    exact hrecord _
  | _ => simp [sent, Event.sent?] at hp

/-- In a cancelled context the work is held back for good. -/
theorem Step.guarded (next : x.Step events y) (h : Guarded s.responseKey x.work) (hstopped : x.stopped = true) :
    Guarded s.responseKey y.work ∧ y.stopped = true ∧ ∀ p ∈ sent events, p.key ≠ s.responseKey := by
  cases next with
  | stops => exact ⟨h, rfl, by simp [sent, Event.sent?]⟩
  | observes => exact ⟨h, hstopped, by simp [sent, Event.sent?]⟩
  | races moves => exact ⟨h, hstopped, fun p hp => key_ne_of_raced moves hp⟩
  | @asks race q rest stopped r fits =>
    obtain rfl : stopped = true := hstopped
    refine ⟨(h.2 r).resolve_right fun hsending => hsending.1 fits, rfl, fun p hp => h.1 p ?_⟩
    simpa [sent, Event.sent?] using hp

theorem Run.guarded_of_stopped (run : x.Run log y) (h : Guarded s.responseKey x.work)
    (hstopped : x.stopped = true) :
    Guarded s.responseKey y.work ∧ y.stopped = true ∧ ∀ p ∈ sent log, p.key ≠ s.responseKey := by
  induction run with
  | start => exact ⟨h, hstopped, by simp [sent]⟩
  | step _ next ih =>
    obtain ⟨hguarded, hstill, hsent⟩ := ih
    obtain ⟨hguarded', hstill', hsent'⟩ := next.guarded hguarded hstill
    rw [sent_append]
    exact ⟨hguarded', hstill', List.forall_mem_append.2 ⟨hsent, hsent'⟩⟩

/-- Work that is held back to its end has failed, and so has its step. -/
theorem exists_error_of_guarded (h : Guarded key x.work) {result : Except SessionError Unit}
    (hresult : x.result? = some result) : ∃ e, result = .error e := by
  obtain ⟨race, work, stopped⟩ := x
  cases work with
  | ask q next => cases hresult
  | done run =>
    obtain ⟨f, rfl⟩ := h
    cases race with
    | none =>
      cases hresult
      exact ⟨_, rfl⟩
    | some race =>
      obtain ⟨watch, -, rfl⟩ := Option.map_eq_some_iff.1 hresult
      cases watch with
      | ok outcome => exact ⟨_, rfl⟩
      | error e => exact ⟨_, rfl⟩

/-- However its questions are answered, work comes to its end. -/
theorem exists_run_finish {answer : (q : StepQuestion) → StepAnswer q} (race : Option Deadline.Race)
    (work : StepScript (Except Failure Unit)) {stopped : Bool}
    (hanswer : ∀ q, StepAnswer.Fits stopped ⟨q, answer q⟩) :
    ∃ log, Run ⟨race, work, stopped⟩ log (finish ⟨race, work, stopped⟩ answer) := by
  induction work with
  | done run => exact ⟨[], .start⟩
  | ask q next ih =>
    obtain ⟨log, hrest⟩ := ih (answer q)
    exact ⟨_, (Run.start.step (.asks (hanswer q))).trans hrest⟩

/-- In a cancelled context the step then has a result: nobody waits for its race. -/
theorem exists_end {answer : (q : StepQuestion) → StepAnswer q} (x : Scene)
    (hanswer : ∀ q, StepAnswer.Fits true ⟨q, answer q⟩) :
    ∃ log result, x.cancel.Run log (x.cancel.finish answer) ∧
      (x.cancel.finish answer).result? = some result := by
  obtain ⟨race, work, stopped⟩ := x
  obtain ⟨log, hrun⟩ := exists_run_finish race work hanswer
  cases race with
  | none => exact ⟨log, _, hrun, rfl⟩
  | some race =>
    obtain ⟨watch, hwatch⟩ : ∃ watch, race.wait true = some watch := by
      unfold Deadline.Race.wait
      cases race.result? with
      | none => exact ⟨_, rfl⟩
      | some result => exact ⟨result, rfl⟩
    exact ⟨log, _, hrun, congrArg (Option.map (joinResults (work.eval answer))) hwatch⟩

end Scene

/-! ### A step that is cancelled in time -/

namespace SessionStep

variable {s : SessionStep} {client : Tracker.Client} {config : DeadlineConfig} {records : Bool}

/-- The posts that go out and the result, when the context of a step is cancelled before the request for its
response has gone out. A step that is refused has no work. -/
inductive Interrupted (s : SessionStep) (client : Tracker.Client) (config : DeadlineConfig) (records : Bool) :
    List Post → Except SessionError Unit → Prop
  | refused {e : SessionError} (refuses : s.scene client config records = .error e) :
      Interrupted s client config records [] (.error e)
  | stopped {x y z : Scene} {log log' : List Scene.Event} {result : Except SessionError Unit}
      (starts : s.scene client config records = .ok x) (before : x.Run log y)
      (early : ¬ Scene.Started s.responseKey y log) (after : y.cancel.Run log' z)
      (ended : z.result? = some result) :
      Interrupted s client config records (Scene.sent (log ++ log')) result

theorem work_of_scene {x : Scene} (h : s.scene client config records = .ok x) : x.work = s.calls client := by
  unfold scene at h
  split at h
  · cases h
  · cases h
    rfl
  · cases h
    rfl

/-- A step that is cancelled in time fails, and its response does not go out. -/
theorem Interrupted.fails {posts : List Post} {result : Except SessionError Unit}
    (h : s.Interrupted client config records posts result) :
    (∃ e, result = .error e) ∧ ∀ p ∈ posts, p.key ≠ s.responseKey := by
  cases h with
  | refused refuses => exact ⟨⟨_, rfl⟩, by simp⟩
  | stopped starts before early after ended =>
    have hstart := (work_of_scene starts).symm ▸ guarded_calls s client
    have hcancelled := before.guarded hstart early
    obtain ⟨hguarded, -, hsent⟩ := after.guarded_of_stopped hcancelled rfl
    refine ⟨Scene.exists_error_of_guarded hguarded ended, ?_⟩
    rw [Scene.sent_append]
    exact List.forall_mem_append.2 ⟨fun p hp hkey => early (.inl ⟨p, hp, hkey⟩), hsent⟩

end SessionStep
end AgentRelay
