import AgentRelay.Proofs.Deadline.Course
import AgentRelay.Proofs.Session.InOrder

/-!
# A created session is heard of

Somebody who creates a session sees a thought on it, or is told of the violation when no thought could be
posted. That holds for any runner, which may post thoughts one after the other or several at once and may
end in any way, and for any answers to the thoughts, the fallback and the record.

* `Live.Act` are the moves of a created step whose context is never cancelled, `Live.Run` is any number of
  them. A step that is processed in order makes such moves (`exists_run_process`).
* `Live.Tells` is what holds at every moment, `Act.tells` says that every move keeps it so.
* `Live.never_silent` is the result.
-/

namespace AgentRelay

open Script

namespace Live

variable {Q : Type} {R : Q → Type}

/-- What is seen of a created step. -/
inductive Event (R : Q → Type)
  /-- The runner is answered. A thought is posted through the emitter that the runner was given. -/
  | answered (question : RunnerQuestion Q) (answer : RunnerAnswer R question)
  /-- A thought is answered that somebody posted through the same emitter while the runner went on. -/
  | beside (post : Post) (answer : Except Failure String)
  /-- The emitter tells the race of such a thought. -/
  | marked
  /-- The race does something. -/
  | raced (deed : Deadline.Deed)

/-- The answer to a thought, whoever posted it. -/
def Event.thought? : Event R → Option (Except Failure String)
  | answered (.think _) r => some r
  | answered (.other _) _ => none
  | beside _ r => some r
  | marked => none
  | raced deed => deed.postAnswer?

/-- What the race does. -/
def Event.deed? : Event R → Option Deadline.Deed
  | raced deed => some deed
  | _ => none

/-- The answers to the thoughts, the fallback among them. -/
def thoughts (log : List (Event R)) : List (Except Failure String) := log.filterMap Event.thought?

/-- What the race did. -/
def deeds (log : List (Event R)) : List Deadline.Deed := log.filterMap Event.deed?

/-- A thought was posted. -/
def IsHeard (log : List (Event R)) : Prop := ∃ id, .ok id ∈ thoughts log

/-- The moves of a created step whose context is never cancelled. The deadline may pass at any time, and
a thought beside the runner is marked at any time after it was posted. -/
inductive Act (log : List (Event R)) (l : Live R) : List (Event R) → Live R → Prop
  | answered {q : RunnerQuestion Q} {next : RunnerAnswer R q → Runner R} (asks : l.runner = .ask q next)
      (r : RunnerAnswer R q) : Act log l [.answered q r] (l.answered q next r)
  | beside (p : Post) (r : Except Failure String) : Act log l [.beside p r] l
  | marked {p : Post} {id : String} (isPosted : .beside p (.ok id) ∈ log) :
      Act log l [.marked] (l.watched .markObserved)
  | raced (expired : Bool) {deeds : List Deadline.Deed} {race : Deadline.Race}
      (moves : l.race.Moves false expired deeds race) :
      Act log l (deeds.map .raced) (l.watched fun _ => race)

/-- Moves in a row; the events are in the order in which they happened. -/
inductive Run (l : Live R) : List (Event R) → Live R → Prop
  | start : Run l [] l
  | act {log events : List (Event R)} {l' l'' : Live R} (past : Run l log l')
      (move : Act log l' events l'') : Run l (log ++ events) l''

variable {l l' : Live R} {log events : List (Event R)}

/-! ### What is seen -/

@[simp] theorem thoughts_append (log log' : List (Event R)) :
    thoughts (log ++ log') = thoughts log ++ thoughts log' := List.filterMap_append

@[simp] theorem deeds_append (log log' : List (Event R)) : deeds (log ++ log') = deeds log ++ deeds log' :=
  List.filterMap_append

@[simp] theorem thoughts_map_raced (ds : List Deadline.Deed) :
    thoughts (ds.map .raced : List (Event R)) = Deadline.Deed.postAnswers ds := by
  rw [thoughts, List.filterMap_map]
  rfl

@[simp] theorem deeds_map_raced (ds : List Deadline.Deed) :
    deeds (ds.map .raced : List (Event R)) = ds := by
  rw [deeds, List.filterMap_map]
  exact List.filterMap_some

theorem IsHeard.append (h : IsHeard log) (events : List (Event R)) : IsHeard (log ++ events) := by
  obtain ⟨id, hid⟩ := h
  exact ⟨id, by simp [hid]⟩

theorem isHeard_of_beside {p : Post} {id : String} (h : .beside p (.ok id) ∈ log) : IsHeard log :=
  ⟨id, List.mem_filterMap.2 ⟨_, h, rfl⟩⟩

/-- A fallback that was posted is heard. -/
theorem isHeard_of_posted {ds : List Deadline.Deed} (id : String) (h : .posted (.ok id) ∈ ds)
    (log : List (Event R)) : IsHeard (log ++ ds.map .raced) := by
  refine ⟨id, ?_⟩
  rw [thoughts_append, thoughts_map_raced]
  exact List.mem_append_right _ (List.mem_filterMap.2 ⟨_, h, rfl⟩)

/-! ### What holds at every moment -/

/-- What the moves of a race so far say, and what it says of the thoughts. -/
structure Tells (race : Deadline.Race) (l : Live R) (log : List (Event R)) : Prop where
  becomes : race.Becomes l.race
  course : race.Course (deeds log) l.race.stage
  heard : l.race.observed = true → IsHeard log
  /-- A race that has ended well has ended with a thought. -/
  ended : ∀ outcome, l.race.stage = .finished (.ok outcome) → IsHeard log

variable {race : Deadline.Race}

/-- An answer changes of the race only what it has seen, and that only when a thought was posted. -/
theorem observe_cases (r : Deadline.Race) (q : RunnerQuestion Q) (a : RunnerAnswer R q) :
    observe r q a = r ∨ observe r q a = r.markObserved ∧ IsHeard [Event.answered q a] := by
  match q, a with
  | .other _, _ => exact .inl rfl
  | .think _, .error _ => exact .inl rfl
  | .think _, .ok id => exact .inr ⟨rfl, id, List.mem_singleton_self _⟩

/-- The race stays as it is. -/
theorem Tells.same (h : Tells race l log) (hrace : l'.race = l.race) (hdeeds : deeds events = []) :
    Tells race l' (log ++ events) where
  becomes := hrace ▸ h.becomes
  course := by simpa [hrace, hdeeds] using h.course
  heard hobserved := (h.heard (hrace ▸ hobserved)).append events
  ended outcome hended := (h.ended outcome (hrace ▸ hended)).append events

/-- The race is told of a thought. -/
theorem Tells.marked (h : Tells race l log) (hrace : l'.race = l.race.markObserved)
    (hdeeds : deeds events = []) (hheard : IsHeard (log ++ events)) : Tells race l' (log ++ events) := by
  obtain ⟨observed, stage, hbecomes⟩ := h.becomes
  have hcourse := h.course
  refine ⟨⟨true, stage, by rw [hrace, hbecomes]; rfl⟩, ?_, fun _ => hheard, fun _ _ => hheard⟩
  simpa [hrace, hdeeds, Deadline.Race.markObserved] using hcourse

theorem Tells.answered (h : Tells race l log) (q : RunnerQuestion Q)
    (next : RunnerAnswer R q → Runner R) (r : RunnerAnswer R q) :
    Tells race (l.answered q next r) (log ++ [.answered q r]) := by
  rcases observe_cases l.race q r with hsame | ⟨hseen, id, hid⟩
  · exact h.same hsame rfl
  · exact h.marked hseen rfl ⟨id, by simp [hid]⟩

theorem Tells.raced {expired : Bool} {ds : List Deadline.Deed} {r : Deadline.Race} (h : Tells race l log)
    (moves : l.race.Moves false expired ds r) :
    Tells race (l.watched fun _ => r) (log ++ ds.map .raced) := by
  obtain ⟨hcourse, hbecomes⟩ := h.course.moves h.becomes moves
  refine ⟨hbecomes, by simpa [watched] using hcourse, ?_, ?_⟩
  -- the race sees a thought of its own only when it has posted the fallback
  · intro hobserved
    cases moves.shift with
    | posted hposting id => exact isHeard_of_posted id List.mem_cons_self log
    | _ => exact (h.heard hobserved).append _
  -- without a cancelled context it ends well only when it has seen one
  · intro outcome hended
    cases moves.shift with
    | waits => exact (h.ended outcome hended).append _
    | saw _ hobserved | sawLate _ hobserved => exact (h.heard hobserved).append _
    | posted hposting id => exact isHeard_of_posted id List.mem_cons_self log
    | gaveUp _ hcancelled => contradiction
    | _ => cases hended

theorem Act.tells (move : Act log l events l') (h : Tells race l log) : Tells race l' (log ++ events) := by
  cases move with
  | answered _ r => exact h.answered _ _ r
  | beside p r => exact h.same rfl rfl
  | marked hposted => exact h.marked rfl rfl ((isHeard_of_beside hposted).append _)
  | raced _ moves => exact h.raced moves

theorem Run.tells (run : Run l log l') (h : Tells race l []) : Tells race l' log := by
  induction run with
  | start => exact h
  | act _ move ih => exact move.tells ih

theorem tells_start (hnew : race.stage = .notStarted) (henforced : race.enforced = true)
    (hunseen : race.observed = false) (runner : Runner R) : Tells race (.start race runner) [] := by
  have hstart : race.start = { race with stage := .racing } := by simp [Deadline.Race.start, hnew, henforced]
  rw [Live.start, hstart]
  exact ⟨⟨race.observed, .racing, rfl⟩, .underWay (.inr (.inl rfl)),
    fun hobserved => by simp [hunseen] at hobserved, nofun⟩

/-! ### Steps in order -/

variable {σ : Type}

theorem Run.advances {r r' : Deadline.Race} {runner : Runner R} {expired : Bool} {ds : List Deadline.Deed}
    (run : Run l log ⟨r, runner⟩) (h : r.Advances false expired ds r') :
    ∃ log', Run l log' ⟨r', runner⟩ := by
  induction h with
  | refl => exact ⟨log, run⟩
  | move _ moves ih =>
    obtain ⟨log', hrun⟩ := ih
    exact ⟨_, hrun.act (.raced expired moves)⟩

/-- A runner that is answered in a monad makes its moves, and the race is still under way. -/
theorem Run.runWatched (s : Session.Surroundings (StateM σ) R) {runner : Runner R}
    (run : Run l log ⟨race, runner⟩) (hracing : race.stage = .racing) (state : σ) :
    ∃ log', Run l log' ⟨((s.runWatched race runner).run state).1.2,
        .done ((s.runWatched race runner).run state).1.1⟩ ∧
      ((s.runWatched race runner).run state).1.2.stage = .racing := by
  induction runner generalizing race log state with
  | done result => exact ⟨log, run, hracing⟩
  | ask q next ih =>
    rcases hanswer : (s.answer q).run state with ⟨r, state'⟩
    rw [Session.Surroundings.runWatched, run_bind_eq hanswer]
    refine ih r (run.act (.answered rfl r)) ?_ state'
    rcases observe_cases race q r with hsame | ⟨hseen, -⟩
    · rw [hsame, hracing]
    · rw [hseen]
      exact hracing

section InOrder

variable {s : Session.Surroundings (StateM σ) TurnAnswer} {l : Live TurnAnswer}
  {log : List (Event TurnAnswer)} {runner : Runner TurnAnswer}

theorem Run.advance (run : Run l log ⟨race, runner⟩) (hracing : race.stage = .racing) (expired : Bool)
    (state : σ) :
    ∃ log', Run l log' ⟨((s.advance race false expired).run state).1, runner⟩ ∧
      (((s.advance race false expired).run state).1.result? ≠ none ∨
        ((s.advance race false expired).run state).1.stage = .racing ∧ expired = false) := by
  obtain ⟨_, hadvances⟩ := race.advances_advance false expired (fun p => return some (← s.think p)) s.now
    (fun v => s.record.elim (pure (.ok ())) fun record => record v) state
  obtain ⟨log', hrun⟩ := run.advances hadvances
  exact ⟨log', hrun, Deadline.Race.advance_ends hracing false expired nofun _ _ state⟩

/-- The race comes to its end when the runner is done, at the latest when the deadline has passed. -/
theorem Run.finishRace (run : Run l log ⟨race, runner⟩) (hracing : race.stage = .racing)
    (hpasses : ∀ span state, ((s.deadlinePasses span).run state).1 = true) (state : σ) :
    ∃ log', Run l log' ⟨((s.finishRace race).run state).1, runner⟩ ∧
      ((s.finishRace race).run state).1.result? ≠ none := by
  obtain ⟨log₁, hrun, hend⟩ := run.advance (s := s) hracing false state
  rcases hfirst : (s.advance race false false).run state with ⟨race₁, state₁⟩
  simp only [hfirst] at hrun hend
  rw [Session.Surroundings.finishRace_eq, run_bind_eq hfirst]
  rcases hend with hend | ⟨hracing₁, -⟩
  · split
    · rename_i hracing₁
      simp [Deadline.Race.result?, hracing₁] at hend
    · exact ⟨log₁, hrun, hend⟩
  · rcases hpass : (s.deadlinePasses race₁.config.deadline).run state₁ with ⟨passes, state₂⟩
    obtain rfl : passes = true := by simpa [hpass] using hpasses race₁.config.deadline state₁
    obtain ⟨log₂, hrun₂, hend₂⟩ := hrun.advance (s := s) hracing₁ true state₂
    simp only [hracing₁]
    rw [run_bind_eq hpass]
    exact ⟨log₂, hrun₂, hend₂.resolve_right (by simp)⟩

/-- Processing in order makes moves, and their result is its own. -/
theorem exists_run_process {step : SessionStep} {config : DeadlineConfig}
    (hroute : step.route config s.record.isSome = .watch race) (hnew : race.start.stage = .racing)
    (hpasses : ∀ span state, ((s.deadlinePasses span).run state).1 = true)
    (work : SessionStep → Runner TurnAnswer) (state : σ) :
    ∃ log l, Run (.start race (work step)) log l ∧
      l.result? false = some ((s.process config work step).run state).1 := by
  obtain ⟨log₁, hrun₁, hracing⟩ := (Run.start (l := .start race (work step))).runWatched s hnew state
  rcases hwork : (s.runWatched race.start (work step)).run state with ⟨⟨result, race₁⟩, state₁⟩
  simp only [hwork] at hrun₁ hracing
  obtain ⟨log₂, hrun₂, hend⟩ := hrun₁.finishRace hracing hpasses state₁
  rcases hrace : (s.finishRace race₁).run state₁ with ⟨race₂, state₂⟩
  simp only [hrace] at hrun₂ hend
  obtain ⟨watch, hwatch⟩ := Option.ne_none_iff_exists'.1 hend
  refine ⟨log₂, _, hrun₂, ?_⟩
  unfold Session.Surroundings.process
  simp only [hroute]
  rw [run_bind_eq hwork]
  dsimp only
  rw [run_bind_eq hrace, hwatch]
  simp only [Live.result?, Deadline.Race.wait_false, hwatch]
  rfl

end InOrder

/-! ### The end -/

/-- A step that has a result has a race that has ended. -/
theorem exists_finished {result : Except SessionError Unit} (h : l.result? false = some result) :
    ∃ run watch, l.race.stage = .finished watch ∧ result = joinResults run watch := by
  unfold Live.result? at h
  split at h
  · cases h
  · rename_i run _
    obtain ⟨watch, hwatch, rfl⟩ := Option.map_eq_some_iff.1 h
    rw [Deadline.Race.wait_false, Deadline.Race.result?] at hwatch
    split at hwatch
    · obtain rfl := Option.some.inj hwatch
      exact ⟨run, _, ‹_›, rfl⟩
    · cases hwatch

theorem violation?_errorOf (v : Violation) (result : Except Failure Unit) :
    (Deadline.errorOf v result).violation? = some v := by
  cases result <;> rfl

/-- A race that has ended in an error has one violation, which it has put on record if it does so. -/
theorem Tells.violation (h : Tells race l log) {e : DeadlineError} (hended : l.race.stage = .finished (.error e)) :
    ∃ now cause, e.violation? = some (race.violation now cause) ∧
      Deadline.Deed.postAnswers (deeds log) = [.error cause] ∧
      Deadline.Deed.violations (deeds log) =
        if race.records then [race.violation now cause] else [] := by
  obtain ⟨now, cause, -, hposts, hrecords⟩ := Deadline.Race.Course.explains (hended ▸ h.course)
  refine ⟨now, cause, ?_, hposts, ?_⟩
  · split at hrecords
    · obtain ⟨result, -, -, rfl⟩ := hrecords
      exact violation?_errorOf _ result
    · rw [hrecords.2]
      rfl
  · split at hrecords
    · obtain ⟨_, hviolations, -⟩ := hrecords
      rw [if_pos ‹_›, hviolations]
    · rw [if_neg ‹_›, hrecords.1]

end Live

/-- The step of an event that creates a session with an id is watched. -/
theorem SessionStep.route_of_filled {s : SessionStep} (hcreated : s.event.isCreated = true)
    (hfilled : Text.isBlankText s.event.session.id = false) (config : DeadlineConfig) (records : Bool) :
    s.route config records =
      .watch { sessionId := s.event.sessionId, enforced := true, config, records } := by
  have haction : s.event.action = .known .created := by simpa [SessionEvent.isCreated] using hcreated
  simp only [route, haction, Deadline.Race.of?_of_filled hcreated hfilled]

/-- A step that is watched creates a session, and this is its race. -/
theorem SessionStep.eq_of_route {s : SessionStep} {config : DeadlineConfig} {records : Bool}
    {race : Deadline.Race} (h : s.route config records = .watch race) :
    s.event.isCreated = true ∧
      race = { sessionId := s.event.sessionId, enforced := true, config, records } := by
  unfold route at h
  split at h
  next haction =>
    have hcreated : s.event.isCreated = true := by simp [SessionEvent.isCreated, haction]
    split at h
    next hrace =>
      obtain rfl := Route.watch.inj h
      unfold Deadline.Race.of? at hrace
      split at hrace
      · cases hrace
      · obtain rfl := Except.ok.inj hrace
        exact ⟨hcreated, by rw [hcreated]⟩
    next => cases h
  next => cases h
  next => cases h

namespace Live

variable {Q : Type} {R : Q → Type}

/-- What a created step that nobody heard of ends with: the violation of its session. -/
structure EndsUnheard (s : SessionStep) (config : DeadlineConfig) (records : Bool) (log : List (Event R))
    (result : Except SessionError Unit) (v : Violation) (e : DeadlineError) : Prop where
  sessionId : v.sessionId = Text.trim s.event.session.id
  deadline : v.deadline = config.deadline
  carried : e.violation? = some v
  ended : result = .error (.deadline e) ∨ ∃ f, result = .error (.combined f e)
  /-- The fallback thought was tried once, and this is what it failed with. -/
  tried : Deadline.Deed.postAnswers (deeds log) = [.error v.cause]
  /-- The violation is put on record once, where that is wanted. -/
  recorded : Deadline.Deed.violations (deeds log) = if records then [v] else []

/-- However its runner works and whatever it is answered, a created step that is never cancelled ends well
or with the failure of its runner only when a thought was posted. When none was, it ends with the violation
of its session, which has then been put on record once if violations are. -/
theorem never_silent (s : SessionStep) (config : DeadlineConfig) (records : Bool)
    (hcreated : s.event.isCreated = true) (hfilled : Text.isBlankText s.event.session.id = false)
    (runner : Runner R) :
    ∃ race, s.route config records = .watch race ∧
      ∀ log l result, Run (.start race runner) log l → l.result? false = some result →
        ((result = .ok () ∨ ∃ f, result = .error (.created f)) → ∃ id, .ok id ∈ thoughts log) ∧
        ((∀ id, .ok id ∉ thoughts log) → ∃ v e, EndsUnheard s config records log result v e) := by
  refine ⟨_, s.route_of_filled hcreated hfilled config records, fun log l result run hresult => ?_⟩
  have htells := run.tells (tells_start rfl rfl rfl runner)
  obtain ⟨run, watch, hended, rfl⟩ := exists_finished hresult
  cases watch with
  | ok outcome =>
    have hheard := htells.ended outcome hended
    exact ⟨fun _ => hheard, fun hsilent => absurd hheard (by simpa [IsHeard] using hsilent)⟩
  | error e =>
    obtain ⟨now, cause, hviolation, hposts, hrecords⟩ := htells.violation hended
    constructor
    · intro hwell
      cases run <;> simp [joinResults] at hwell
    · refine fun _ => ⟨_, e, rfl, rfl, hviolation, ?_, hposts, hrecords⟩
      cases run with
      | ok _ => exact .inl rfl
      | error f => exact .inr ⟨f, rfl⟩

/-- A step that creates a session. -/
def errand : SessionStep := .ofEvent { action := .known .created, session := { id := "s" } } ""

/-- No thought on the errand can be posted, neither by its runner nor beside it nor as the fallback: it ends
with the failure of the runner and with the violation, which is put on record. -/
theorem never_silent_unheard :
    ∃ race log l result e, errand.route {} true = .watch race ∧
      Run (.start race (turn errand)) log l ∧ l.result? false = some result ∧
      (∀ id, .ok id ∉ thoughts log) ∧ (∃ f, result = .error (.combined f e)) ∧
      e.violation?.map Violation.sessionId = some "s" ∧
      (Deadline.Deed.violations (deeds log)).map some = [e.violation?] := by
  obtain ⟨race, hroute, hends⟩ :=
    never_silent errand {} true (by decide) (by decide) (turn errand)
  have hrace := hroute
  rw [errand.route_of_filled (by decide) (by decide)] at hrace
  obtain rfl := Route.watch.inj hrace
  have hstart : Run (.start ⟨errand.event.sessionId, true, {}, true, false, .notStarted⟩ (turn errand)) [] _ :=
    .start
  have hbeside := hstart.act (.beside errand.startThought (.error default))
  have hanswered := hbeside.act (.answered (q := .think errand.startThought) rfl
    (Except.error default : Except Failure String))
  have hexpired := hanswered.act (.raced true (.decided (c := false) (x := true) nofun (fun _ => rfl) rfl))
  have hposted := (hexpired.act (.raced true (.rechecked rfl))).act
    (.raced true (.posted rfl .epoch (.error default)))
  have hrecorded := hposted.act (.raced true (.recorded rfl (.ok ())))
  obtain ⟨log, l, hrun, hthoughts, f, e', hresult⟩ : ∃ log l,
      Run (.start ⟨errand.event.sessionId, true, {}, true, false, .notStarted⟩ (turn errand)) log l ∧
      thoughts log = [.error default, .error default, .error default] ∧
      ∃ f e, l.result? false = some (.error (.combined f e)) :=
    ⟨_, _, hrecorded, rfl, _, _, rfl⟩
  have hsilent : ∀ id, .ok id ∉ thoughts log := by simp [hthoughts]
  obtain ⟨v, e, hunheard⟩ := (hends _ _ _ hrun hresult).2 hsilent
  refine ⟨_, log, l, _, e, hroute, hrun, hresult, hsilent, hunheard.ended.resolve_left nofun, ?_, ?_⟩
  · rw [hunheard.carried, Option.map_some, hunheard.sessionId]
    decide
  · rw [hunheard.recorded, hunheard.carried]
    rfl

end Live
end AgentRelay
