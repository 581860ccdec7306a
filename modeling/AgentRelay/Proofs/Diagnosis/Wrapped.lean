import AgentRelay.Proofs.Diagnosis.Category
import AgentRelay.Proofs.Job.Line
import AgentRelay.Proofs.Queue.Failed
import AgentRelay.Proofs.Queue.Site
import AgentRelay.Proofs.Session.Heard

/-!
# A failed thought in the failure of a worker

The thought that a step starts with cannot be posted. The failure of the call has a category by its kind.
By the time the worker ends, the call is part of a text with the ids of the job in it: its kind is lost, and
words decide, wherever in the text they stand.

* `SessionStep.FailsToThink` are the results of a step whose first thought cannot be posted, in whatever order
  its moves are made.
* `Service.category_of_failed_thought` says when the category is kept, `Service.not_category_of_failed_thought`
  that it may be lost.
-/

namespace AgentRelay

open Script

/-! ### What a runner was answered -/

namespace Live

variable {Q : Type} {R : Q → Type} {l l' : Live R} {log events : List (Event R)}

/-- The answer to the runner. -/
def Event.answer? : Event R → Option (Sigma (RunnerAnswer R))
  | answered q r => some ⟨q, r⟩
  | _ => none

/-- What the runner asked and was answered. -/
def answers (log : List (Event R)) : List (Sigma (RunnerAnswer R)) := log.filterMap Event.answer?

theorem answers_append (log log' : List (Event R)) : answers (log ++ log') = answers log ++ answers log' :=
  List.filterMap_append

/-- In front of what the runner still does, a move puts its answers. -/
theorem Act.trace {rest : List (Sigma (RunnerAnswer R))} {run : Except Failure Unit}
    (move : Act log l events l') (h : Trace l'.runner rest run) :
    Trace l.runner (answers events ++ rest) run := by
  cases move with
  | answered asks r =>
    rw [asks]
    exact .ask r h
  | beside p r => exact h
  | marked isPosted => exact h
  | @raced expired deeds race moves =>
    have hnone : answers (deeds.map .raced : List (Event R)) = [] := by
      simp [answers, Event.answer?]
    rw [hnone]
    exact h

/-- Beside the race a runner asks what it would ask alone. -/
theorem Run.trace {rest : List (Sigma (RunnerAnswer R))} {run : Except Failure Unit} (steps : Run l log l')
    (h : Trace l'.runner rest run) : Trace l.runner (answers log ++ rest) run := by
  induction steps generalizing rest with
  | start => exact h
  | act _ move ih =>
    rw [answers_append, List.append_assoc]
    exact ih (move.trace h)

theorem Act.weaken {past : List (Event R)} (move : Act log l events l') : Act (past ++ log) l events l' := by
  cases move with
  | answered asks r => exact .answered asks r
  | beside p r => exact .beside p r
  | marked isPosted => exact .marked (List.mem_append_right past isPosted)
  | raced expired moves => exact .raced expired moves

theorem Run.trans {l'' : Live R} {log' : List (Event R)} (steps : Run l log l') (steps' : Run l' log' l'') :
    Run l (log ++ log') l'' := by
  induction steps' with
  | start => rwa [List.append_nil]
  | act _ move ih =>
    rw [← List.append_assoc]
    exact ih.act move.weaken

end Live

/-! ### A step without its first thought -/

/-- What work ends with when its thought cannot be posted. -/
def Turn.thoughtFailure (e : Tracker.Error) : Failure :=
  (Failure.ofTracker e).context "emit linear thought activity"

/-- The failure of a step whose work failed, maybe with a violation beside it. -/
inductive SessionError.IsOfWork (run : Failure) : SessionError → Prop
  | prompted : IsOfWork run (.prompted run)
  | created : IsOfWork run (.created run)
  | combined (violation : DeadlineError) : IsOfWork run (.combined run violation)

namespace SessionStep

/-- The thought that the step starts with cannot be posted. -/
def startFailure (s : SessionStep) (e : Tracker.Error) : Sigma (RunnerAnswer TurnAnswer) :=
  ⟨.think s.startThought, Except.error (.ofTracker e)⟩

/-- The results of a step that is not cancelled and whose first thought cannot be posted. -/
inductive FailsToThink (s : SessionStep) (config : DeadlineConfig) (records : Bool) (e : Tracker.Error) :
    Except SessionError Unit → Prop
  | worked {log : List (Sigma (RunnerAnswer TurnAnswer))} {run : Except Failure Unit}
      (route : s.route config records = .work) (trace : Trace (turn s) (s.startFailure e :: log) run) :
      FailsToThink s config records e (run.mapError .prompted)
  | watched {race : Deadline.Race} {log : List (Live.Event TurnAnswer)} {l : Live TurnAnswer}
      {rest : List (Sigma (RunnerAnswer TurnAnswer))} {result : Except SessionError Unit}
      (route : s.route config records = .watch race) (steps : Live.Run (.start race (turn s)) log l)
      (fails : Live.answers log = s.startFailure e :: rest) (ended : l.result? false = some result) :
      FailsToThink s config records e result

variable {s : SessionStep} {config : DeadlineConfig} {records : Bool} {e : Tracker.Error}

theorem eq_of_startFailure {log : List (Sigma (RunnerAnswer TurnAnswer))} {run : Except Failure Unit}
    (h : Trace (turn s) (s.startFailure e :: log) run) : run = .error (Turn.thoughtFailure e) := by
  obtain ⟨r, rest, heq, hdone⟩ := trace_ask_iff.1 h
  cases heq
  exact (trace_done_iff.1 hdone).2

/-- Such a step ends with the failure of its work. -/
theorem FailsToThink.exists_error {result : Except SessionError Unit}
    (h : s.FailsToThink config records e result) :
    ∃ failure, result = .error failure ∧ failure.IsOfWork (Turn.thoughtFailure e) := by
  cases h with
  | worked route trace =>
    rw [eq_of_startFailure trace]
    exact ⟨_, rfl, .prompted⟩
  | @watched race log l rest result route steps fails ended =>
    obtain ⟨race', runner⟩ := l
    cases runner with
    | ask q next => cases ended
    | done run =>
      have htrace := steps.trace (.done run)
      rw [List.append_nil, fails] at htrace
      obtain rfl := eq_of_startFailure htrace
      obtain ⟨watch, -, rfl⟩ := Option.map_eq_some_iff.1 ended
      cases watch with
      | ok outcome => exact ⟨_, rfl, .created⟩
      | error violation => exact ⟨_, rfl, .combined violation⟩

/-- A runner that is done is not asked again. -/
theorem answers_eq_nil {l : Live TurnAnswer} {log : List (Live.Event TurnAnswer)} {race : Deadline.Race}
    {run : Except Failure Unit} (steps : Live.Run ⟨race, .done run⟩ log l)
    {result : Except SessionError Unit} (ended : l.result? false = some result) : Live.answers log = [] := by
  obtain ⟨race', runner⟩ := l
  cases runner with
  | ask q next => cases ended
  | done run' =>
    have htrace := steps.trace (.done run')
    rw [List.append_nil] at htrace
    exact (trace_done_iff.1 htrace).1

/-- A step that is processed in order in surroundings where its first thought cannot be posted has such a
result, unless it is refused. -/
theorem failsToThink_process {σ : Type} {surroundings : Session.Surroundings (StateM σ) TurnAnswer}
    {state : σ} (hthink : ((surroundings.think s.startThought).run state).1 = .error (.ofTracker e))
    (hpasses : ∀ span state, ((surroundings.deadlinePasses span).run state).1 = true)
    (hroute : ∀ error, s.route config surroundings.record.isSome ≠ .refuse error) :
    s.FailsToThink config surroundings.record.isSome e
      ((surroundings.process config turn s).run state).1 := by
  rcases hstart : (surroundings.think s.startThought).run state with ⟨answer, state₁⟩
  obtain rfl : answer = .error (.ofTracker e) := by simpa [hstart] using hthink
  have hanswer : (surroundings.answer (.think s.startThought)).run state =
      (Except.error (.ofTracker e), state₁) := hstart
  unfold Session.Surroundings.process
  cases hway : s.route config surroundings.record.isSome with
  | refuse error => exact absurd hway (hroute error)
  | work =>
    have hrun : ((turn s).run surroundings.answer).run state = (.error (Turn.thoughtFailure e), state₁) := by
      change (surroundings.answer (.think s.startThought) >>= _).run state = _
      rw [run_bind_eq hanswer]
      rfl
    dsimp only
    rw [run_bind_eq hrun]
    exact .worked hway (.ask _ (.done _))
  | watch race =>
    have hrun : (surroundings.runWatched race.start (turn s)).run state =
        ((.error (Turn.thoughtFailure e), race.start), state₁) := by
      change (surroundings.answer (.think s.startThought) >>= _).run state = _
      rw [run_bind_eq hanswer]
      rfl
    have hthought := (Live.Run.start (l := .start race (turn s))).act
      (.answered (q := .think s.startThought) rfl (Except.error (.ofTracker e) : Except Failure String))
    have hracing : race.start.stage = .racing := by
      rw [(eq_of_route hway).2]
      rfl
    -- from there on the race goes to its end alone
    let answered : Live TurnAnswer := ⟨race.start, .done (.error (Turn.thoughtFailure e))⟩
    obtain ⟨log, hlater, hend⟩ :=
      (Live.Run.start (l := answered)).finishRace (s := surroundings) hracing hpasses state₁
    rcases hrace : (surroundings.finishRace race.start).run state₁ with ⟨race', state₂⟩
    simp only [hrace] at hlater hend
    obtain ⟨watch, hwatch⟩ := Option.ne_none_iff_exists'.1 hend
    have hresult : (⟨race', .done (.error (Turn.thoughtFailure e))⟩ : Live TurnAnswer).result? false =
        some (joinResults (.error (Turn.thoughtFailure e)) watch) := by
      simp [Live.result?, Deadline.Race.wait_false, hwatch]
    dsimp only
    rw [run_bind_eq hrun]
    dsimp only
    rw [run_bind_eq hrace, hwatch]
    have hfails := Live.answers_append
      [.answered (.think s.startThought) (Except.error (.ofTracker e) : Except Failure String)] log
    rw [answers_eq_nil hlater hresult] at hfails
    exact .watched hway (hthought.trans hlater) hfails hresult

end SessionStep

/-! ### The wording of the failures -/

@[simp] theorem Failure.text_note (text : String) : (Failure.note text).text = text := rfl

@[simp] theorem WorkerError.text_processor (id : String) (cause : Failure) :
    (WorkerError.processor id cause).failure.text =
      "process queued job " ++ Text.quoted id ++ ": " ++ cause.text := rfl

/-- The kind of the cause of a failed job is lost. -/
theorem WorkerError.ofFailure_processor (id : String) (cause : Failure) :
    Category.ofFailure (processor id cause).failure = Category.ofText (processor id cause).failure.text := by
  apply Category.ofFailure_of_wordless
  simp [failure, sources, area, Failure.chain, Category.ofCause?]

/-- Behind a failure that has a category by its kind there is no other cause. -/
theorem Tracker.Error.sources_eq_nil {e : Tracker.Error} {c : Category}
    (h : Category.ofTracker? e = some c) : e.sources = [] := by
  cases e <;> first | rfl | cases h

theorem Turn.text_thoughtFailure {e : Tracker.Error} {c : Category} (h : Category.ofTracker? e = some c) :
    (thoughtFailure e).text = "emit linear thought activity: " ++ e.message := by
  unfold thoughtFailure Failure.ofTracker
  rw [Tracker.Error.sources_eq_nil h]
  rfl

/-- The wording of work is part of the wording of its step. -/
theorem SessionError.IsOfWork.infix_message {run : Failure} {failure : SessionError}
    (h : failure.IsOfWork run) : run.text.toList <:+: failure.message.toList := by
  cases h with
  | prompted =>
    have hmessage : (SessionError.prompted run).message = "prompted event run failed: " ++ run.text := rfl
    rw [hmessage, String.toList_append]
    exact (List.suffix_append _ _).isInfix
  | created =>
    have hmessage : (SessionError.created run).message = "created event run failed: " ++ run.text := rfl
    rw [hmessage, String.toList_append]
    exact (List.suffix_append _ _).isInfix
  | combined violation =>
    have hmessage : (SessionError.combined run violation).message =
        "created event run failed: " ++ run.text ++ "; first-thought SLA failed: " ++ violation.message := rfl
    simp only [hmessage, String.toList_append, List.append_assoc]
    exact List.infix_append' _ _ _

/-- The wording of the call is part of the wording of the step. -/
theorem SessionStep.FailsToThink.exists_infix {s : SessionStep} {config : DeadlineConfig} {records : Bool}
    {e : Tracker.Error} {result : Except SessionError Unit} (h : s.FailsToThink config records e result)
    {c : Category} (hkind : Category.ofTracker? e = some c) :
    ∃ failure, result = .error failure ∧ e.message.toList <:+: failure.message.toList := by
  have hthought : e.message.toList <:+: (Turn.thoughtFailure e).text.toList := by
    rw [Turn.text_thoughtFailure hkind, String.toList_append]
    exact (List.suffix_append _ _).isInfix
  obtain ⟨failure, rfl, hfailure⟩ := h.exists_error
  exact ⟨failure, rfl, hthought.trans hfailure.infix_message⟩

/-! ### The failure of the worker -/

namespace Service

variable {config : WorkerConfig} {n cycles : Nat} {log : List Exchange} {r : Except Failure Unit} {j : Job}
  {e : Tracker.Error} {deadline : DeadlineConfig} {records : Bool} {result : Except SessionError Unit}

/-- What the failure `f` of a worker tells of a call that failed with `e`, whose category was `c` by its kind. -/
structure Retells (e : Tracker.Error) (c : Category) (f : Failure) : Prop where
  cited : e.message.toList <:+: f.text.toList
  /-- The kind of the call is lost: words decide. -/
  by_words : Category.ofFailure f = Category.ofText f.text
  kept_iff : Category.ofFailure f = c ↔ c.Speaks f.text ∧ ∀ c' ∈ c.before, ¬ c'.Speaks f.text
  /-- What a client fails with speaks for its category. -/
  kept_iff_of_client : ∀ client post calls, Trace (Tracker.Client.post client post) calls (.error e) →
    (Category.ofFailure f = c ↔ ∀ c' ∈ c.before, ¬ c'.Speaks f.text)

/-- The first thought of a job cannot be posted, and the worker, which is not stopped, ends with a failure.
The wording of the call is in it, but its kind is not: words decide. So the category that the call had by its
kind is kept just when a word speaks for it and none for a category before it. What a client fails with speaks
for its category, and then only the words for those before it matter. -/
theorem category_of_failed_thought (work : Trace (work config n cycles) log r)
    (thinks : (SessionStep.ofJob j).FailsToThink deadline records e result)
    (processed : ⟨.process j, result.mapError SessionError.failure⟩ ∈ log)
    (goesOn : ⟨.isCancelled, true⟩ ∉ log) {c : Category} (kind : Category.ofTracker? e = some c) :
    Category.ofFailure (.ofTracker e) = c ∧ ∃ f, r = .error f ∧ Retells e c f := by
  obtain ⟨failure, rfl, hmessage⟩ := thinks.exists_infix kind
  have hinfix : e.message.toList <:+:
      (WorkerError.processor j.id failure.failure).failure.text.toList := by
    rw [WorkerError.text_processor, String.toList_append]
    exact hmessage.trans (List.suffix_append _ _).isInfix
  have hwords := WorkerError.ofFailure_processor j.id failure.failure
  have hne := Category.ne_unknown_of_ofTracker? kind
  refine ⟨Category.ofFailure_ofTracker kind, _, eq_of_failed work processed goesOn, hinfix, hwords, ?_, ?_⟩
  · rw [hwords, Category.ofText_eq_iff hne]
  · intro client post calls hcalls
    have hof := (Tracker.yields_post client post).of_trace hcalls fun _ _ => trivial
    have hspeaks := (Tracker.Error.speaks (hof e rfl) kind).mono hinfix
    rw [hwords, Category.ofText_eq_iff hne, and_iff_right hspeaks]

/-- A job of a prompt. -/
def errand (id : String) : Job :=
  { id, contractVersion := Job.currentVersion, event := { action := .known .prompted } }

/-- The token is refused. -/
def refusal : Tracker.Error := .status Tracker.Client.postOperation 401 "Unauthorized"

/-- Every reply is that status and nothing else. -/
def refusing : (q : Tracker.Question) → Tracker.Answer q
  | .isCancelled => false
  | .exchange _ => Tracker.Exchange.reply { status := 401, chunks := [] }

/-- Then a client fails like that. -/
theorem exists_refusal :
    ∃ client post calls, Trace (Tracker.Client.post client post) calls (.error refusal) := by
  have heval : (Tracker.Client.post ⟨"e", "t"⟩ ⟨"s", "k", .thought "b"⟩).eval refusing = .error refusal := by
    decide +kernel
  exact ⟨_, _, _, heval ▸ trace_eval refusing _⟩

/-- The failure of work on an errand whose thought is refused. -/
def refused : SessionError := .prompted (Turn.thoughtFailure refusal)

theorem failsToThink_errand (id : String) :
    (SessionStep.ofJob (errand id)).FailsToThink {} true refusal (.error refused) := by
  have htrace : Trace (turn (SessionStep.ofJob (errand id)))
      [(SessionStep.ofJob (errand id)).startFailure refusal] (.error (Turn.thoughtFailure refusal)) :=
    .ask _ (.done _)
  exact .worked rfl htrace

/-- A worker finds an errand, its thought is refused, and the worker ends. -/
theorem exists_refused (id : String) (h : Text.isBlankText id = false) :
    ∃ log, Trace (work {} 1 1) log
        (.error (WorkerError.processor id refused.failure).failure) ∧
      ⟨.process (errand id), Except.error refused.failure⟩ ∈ log ∧ ⟨.isCancelled, true⟩ ∉ log := by
  have hkept : (errand id).IsKept :=
    ⟨rfl, by simp [Job.isNameless, errand, h],
      ⟨WireName.isNamed_ofName "prompted", WireName.isNamed_ofName "", by simp [errand]⟩⟩
  have hcycle := Worker.trace_drain_line {} hkept refused.failure false
  have hrun : Trace (Worker.run 1 1 { config := {}, offset := 0 }) _ _ :=
    trace_bind_iff.2 ⟨_, _, _, rfl, hcycle, .done _⟩
  refine ⟨_, trace_bind_iff.2 ⟨_, _, _, rfl, Site.trace_start (by decide) (by decide) 0,
    trace_bind_iff.2 ⟨_, _, _, rfl, hrun, .done _⟩⟩, ?_, ?_⟩
  · simp
  · intro hmem
    simp only [List.cons_append, List.nil_append, List.append_nil, List.mem_cons, List.not_mem_nil,
      or_false] at hmem
    rcases hmem with h | h | h | h | h | h | h | h <;> cases h

/-- An errand has an ordinary id: the refused token is told from the text. -/
theorem category_of_failed_thought_refused :
    ∃ log f, Trace (work {} 1 1) log (.error f) ∧
      (SessionStep.ofJob (errand "a")).FailsToThink {} true refusal (.error refused) ∧
      ⟨.process (errand "a"), Except.error refused.failure⟩ ∈ log ∧ ⟨.isCancelled, true⟩ ∉ log ∧
      Category.ofFailure (.ofTracker refusal) = .auth ∧ Category.ofFailure f = .auth := by
  obtain ⟨log, hwork, hprocessed, hgoesOn⟩ := exists_refused "a" (by decide)
  obtain ⟨client, post, calls, hcalls⟩ := exists_refusal
  obtain ⟨htyped, f, hf, hretells⟩ :=
    category_of_failed_thought hwork (failsToThink_errand "a") hprocessed hgoesOn (c := .auth) rfl
  obtain rfl := Except.error.inj hf
  exact ⟨log, _, hwork, failsToThink_errand "a", hprocessed, hgoesOn, htyped,
    (hretells.kept_iff_of_client client post calls hcalls).2 (by decide +kernel)⟩

/-- The id of an errand is enough to hide that a token was refused. -/
theorem not_category_of_failed_thought :
    ¬ ∀ (config : WorkerConfig) (n cycles : Nat) (log : List Exchange) (f : Failure) (j : Job)
      (deadline : DeadlineConfig) (records : Bool) (e : Tracker.Error) (result : Except SessionError Unit)
      (c : Category), Trace (work config n cycles) log (.error f) →
      (SessionStep.ofJob j).FailsToThink deadline records e result →
      ⟨.process j, result.mapError SessionError.failure⟩ ∈ log → ⟨.isCancelled, true⟩ ∉ log →
      Category.ofTracker? e = some c → Category.ofFailure f = Category.ofFailure (.ofTracker e) := by
  intro h
  obtain ⟨log, hwork, hprocessed, hgoesOn⟩ := exists_refused "webhook-7" (by decide)
  have hsame := h _ _ _ log _ _ _ _ _ _ .auth hwork (failsToThink_errand "webhook-7") hprocessed hgoesOn rfl
  have hquoted : Category.webhook.Speaks (Text.quoted "webhook-7") := by decide +kernel
  have hspeaks : Category.webhook.Speaks (WorkerError.processor "webhook-7" refused.failure).failure.text := by
    rw [WorkerError.text_processor, String.append_assoc]
    exact hquoted.around _ _
  have hlost : Category.ofFailure (WorkerError.processor "webhook-7" refused.failure).failure = .webhook := by
    rw [WorkerError.ofFailure_processor, Category.ofText_eq, if_pos hspeaks]
  rw [hlost, Category.ofFailure_ofTracker (c := .auth) rfl] at hsame
  cases hsame

end Service
end AgentRelay
