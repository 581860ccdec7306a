import AgentRelay.Proofs.Session.Ends
import AgentRelay.Session.Process

/-!
# Processing in order

A step that is processed in a monad makes its moves in one order: first those of the runner, then those
that end the race. So it ends with one of the results that processing may have in any order.

* `Deadline.Race.IsCalm.advance_steps` are the moves of a race that goes on as far as it can.
* `Surroundings.Succeeds.runWatched_steps` and `finishRace_steps` are the two parts of a created step.
* `Surroundings.Succeeds.ends_process` is the whole.
-/

namespace AgentRelay

open Script

variable {σ : Type}

/-! ### A race that goes on -/

namespace Deadline.Race

variable {r : Race} {post : Post → StateM σ (Option (Except Failure String))} {now : StateM σ Instant}
  {record : Violation → StateM σ (Except Failure Unit)} {cancelled expired : Bool} {state : σ}

theorem recheck_stage_ne (r : Race) : r.recheck.stage ≠ .expired := by
  unfold recheck
  split
  · split <;> simp [finish]
  · assumption

/-- Who goes on waiting has not seen the deadline pass. -/
theorem expired_of_racing (h : (r.decide false expired).recheck.stage = .racing) :
    expired = false := by
  cases hstage : r.stage <;> cases hobserved : r.observed <;> cases expired <;>
    simp [decide, recheck, finish, hstage, hobserved] at h ⊢

/-- A race that comes to the fallback posts it. -/
theorem run_advance_of_posting (now : StateM σ Instant)
    (record : Violation → StateM σ (Except Failure Unit)) {id : String}
    (hstage : (r.decide cancelled expired).recheck.stage = .posting)
    (hpost : ((post (r.decide cancelled expired).recheck.fallback).run state).1 = some (.ok id)) :
    ∃ t, ((r.advance cancelled expired post now record).run state).1 =
      (r.decide cancelled expired).recheck.posted t (.ok id) := by
  unfold advance
  generalize (r.decide cancelled expired).recheck = r₁ at hstage hpost ⊢
  rcases hrun : (post r₁.fallback).run state with ⟨a, state₁⟩
  obtain rfl : a = some (.ok id) := by simpa [hrun] using hpost
  rcases hnow : now.run state₁ with ⟨t, state₂⟩
  have hend : (r₁.posted t (.ok id)).stage = .finished (.ok (.fallbackPosted id)) := by
    simp [posted, hstage]
  refine ⟨t, ?_⟩
  -- nothing is put on record
  simp only [hstage]
  rw [run_bind_eq hrun]
  dsimp only
  rw [run_bind_eq hnow]
  simp only [hend]
  rfl

theorem run_advance_of_ne_posting (hstage : (r.decide cancelled expired).recheck.stage ≠ .posting) :
    ((r.advance cancelled expired post now record).run state).1 =
      (r.decide cancelled expired).recheck := by
  unfold advance
  generalize (r.decide cancelled expired).recheck = r₁ at hstage ⊢
  dsimp only
  split
  · exact absurd ‹_› hstage
  · rfl

variable {Q : Type} {R : Q → Type} {good : (q : RunnerQuestion Q) → RunnerAnswer R q → Prop}

/-- A calm race goes on to its end, or it waits for the deadline. -/
theorem IsCalm.advance_steps (h : r.IsCalm)
    (hpost : ∀ p state, ∃ id, ((post p).run state).1 = some (.ok id)) (runner : Runner R) :
    ∃ moves, Live.Steps ⟨r, runner⟩ moves
        ⟨((r.advance false expired post now record).run state).1, runner⟩ ∧
      (∀ m ∈ moves, m.IsCalm good) ∧
      (((r.advance false expired post now record).run state).1.result? ≠ none ∨
        ((r.advance false expired post now record).run state).1.stage = .racing ∧ expired = false) := by
  have hcalm : ((r.decide false expired).recheck).IsCalm := (h.decide expired).recheck
  have hsteps : Live.Steps ⟨r, runner⟩ [.decided false expired, .rechecked]
      ⟨(r.decide false expired).recheck, runner⟩ :=
    .head (.watched rfl) (.head (.watched rfl) (.refl _))
  by_cases hposting : (r.decide false expired).recheck.stage = .posting
  · obtain ⟨id, hid⟩ := hpost (r.decide false expired).recheck.fallback state
    obtain ⟨t, hadvance⟩ := run_advance_of_posting now record hposting hid
    rw [hadvance]
    refine ⟨_, hsteps.append (.head (m := .posted t (.ok id)) (.watched rfl) (.refl _)), ?_, .inl ?_⟩
    · simp [Live.Move.IsCalm]
    · simp [Race.posted, hposting, Race.result?]
  · rw [run_advance_of_ne_posting hposting]
    refine ⟨_, hsteps, by simp [Live.Move.IsCalm], ?_⟩
    unfold IsCalm at hcalm
    cases hstage : (r.decide false expired).recheck.stage with
    | finished result => exact .inl (by simp [Race.result?, hstage])
    | racing => exact .inr ⟨rfl, expired_of_racing hstage⟩
    | expired => exact absurd hstage (recheck_stage_ne _)
    | posting => exact absurd hstage hposting
    | notStarted => simp [hstage] at hcalm
    | recording v => simp [hstage] at hcalm

end Deadline.Race

/-! ### A step -/

namespace Session.Surroundings

variable {s : Surroundings (StateM σ) TurnAnswer}

/-- Nobody cancels and every call succeeds. -/
structure Succeeds (s : Surroundings (StateM σ) TurnAnswer) : Prop where
  answers : ∀ q state, Turn.Succeeds q ((s.answer q).run state).1
  passes : ∀ span state, ((s.deadlinePasses span).run state).1 = true

/-- Surroundings in which every call succeeds at once. -/
def obliging : Surroundings (StateM Unit) TurnAnswer where
  think _ := pure (.ok "")
  record := none
  other
    | .runAgent _ => pure (Except.ok .completed)
    | .link _ => pure (Except.ok ())
    | .respond _ => pure (Except.ok "")
  deadlinePasses _ := pure true
  now := pure .epoch

theorem succeeds_obliging : obliging.Succeeds where
  answers q state := by
    rcases q with p | ⟨request⟩ | ⟨update⟩ | ⟨p⟩
    · exact ⟨"", rfl⟩
    · exact ⟨.completed, rfl, rfl⟩
    · trivial
    · exact ⟨"", rfl⟩
  passes _ _ := rfl

/-- The runner comes to its end, and its thoughts are seen. -/
theorem Succeeds.runWatched_steps (h : s.Succeeds) (race : Deadline.Race) (runner : Runner TurnAnswer)
    (state : σ) :
    ∃ moves, Live.Steps ⟨race, runner⟩ moves ⟨((s.runWatched race runner).run state).1.2,
        .done ((s.runWatched race runner).run state).1.1⟩ ∧ ∀ m ∈ moves, m.IsCalm Turn.Succeeds := by
  induction runner generalizing race state with
  | done run => exact ⟨[], .refl _, by simp⟩
  | ask q next ih =>
    rcases hrun : (s.answer q).run state with ⟨r, state₁⟩
    have hr : Turn.Succeeds q r := by simpa [hrun] using h.answers q state
    obtain ⟨moves, hsteps, hmoves⟩ := ih r (Live.observe race q r) state₁
    rw [runWatched, run_bind_eq hrun]
    exact ⟨.answered q r :: moves, .head (.answered r) hsteps, List.forall_mem_cons.2 ⟨hr, hmoves⟩⟩

/-- A race goes on in the surroundings. -/
def advance (s : Surroundings (StateM σ) TurnAnswer) (race : Deadline.Race) (cancelled expired : Bool) :
    StateM σ Deadline.Race :=
  race.advance cancelled expired (fun p => return some (← s.think p)) s.now
    fun v => s.record.elim (pure (.ok ())) fun record => record v

theorem finishRace_eq (race : Deadline.Race) :
    s.finishRace race = s.advance race false false >>= fun race =>
      match race.stage with
      | .racing => s.deadlinePasses race.config.deadline >>= fun passes =>
          s.advance race (!passes) passes
      | _ => pure race := rfl

theorem Succeeds.advance_steps (h : s.Succeeds) {race : Deadline.Race} (hcalm : race.IsCalm)
    (expired : Bool) (runner : Runner TurnAnswer) (state : σ) :
    ∃ moves, Live.Steps ⟨race, runner⟩ moves ⟨((s.advance race false expired).run state).1, runner⟩ ∧
      (∀ m ∈ moves, m.IsCalm Turn.Succeeds) ∧
      (((s.advance race false expired).run state).1.result? ≠ none ∨
        ((s.advance race false expired).run state).1.stage = .racing ∧ expired = false) := by
  refine hcalm.advance_steps (fun p state => ?_) runner
  obtain ⟨id, hid⟩ := h.answers (.think p) state
  exact ⟨id, congrArg some hid⟩

/-- The race comes to its end, at the latest when the deadline has passed. -/
theorem Succeeds.finishRace_steps (h : s.Succeeds) {race : Deadline.Race} (hcalm : race.IsCalm)
    (runner : Runner TurnAnswer) (state : σ) :
    ∃ moves, Live.Steps ⟨race, runner⟩ moves ⟨((s.finishRace race).run state).1, runner⟩ ∧
      (∀ m ∈ moves, m.IsCalm Turn.Succeeds) ∧ ((s.finishRace race).run state).1.result? ≠ none := by
  obtain ⟨moves, hsteps, hmoves, hend⟩ := h.advance_steps hcalm false runner state
  rcases hrun : (s.advance race false false).run state with ⟨race₁, state₁⟩
  simp only [hrun] at hsteps hend
  rw [finishRace_eq, run_bind_eq hrun]
  rcases hend with hend | ⟨hracing, -⟩
  -- a race that has ended is left alone
  · split
    · rename_i hracing
      simp [Deadline.Race.result?, hracing] at hend
    · exact ⟨moves, hsteps, hmoves, hend⟩
  -- a race that waits ends when the deadline has passed
  · rcases hpass : (s.deadlinePasses race₁.config.deadline).run state₁ with ⟨passes, state₂⟩
    obtain rfl : passes = true := by simpa [hpass] using h.passes race₁.config.deadline state₁
    have hcalm₁ : race₁.IsCalm := by simp [Deadline.Race.IsCalm, hracing]
    obtain ⟨moves', hsteps', hmoves', hend'⟩ := h.advance_steps hcalm₁ true runner state₂
    simp only [hracing]
    rw [run_bind_eq hpass]
    refine ⟨moves ++ moves', hsteps.append hsteps', List.forall_mem_append.2 ⟨hmoves, hmoves'⟩, ?_⟩
    exact hend'.resolve_right (by simp)

variable {step : SessionStep} {config : DeadlineConfig}

/-- Processing in order ends with a result that processing may have in any order. -/
theorem Succeeds.ends_process (h : s.Succeeds) (state : σ) :
    step.Ends config s.record.isSome ((s.process config turn step).run state).1 := by
  unfold process
  cases hroute : step.route config s.record.isSome with
  | refuse e => exact .refused hroute
  | work =>
    obtain ⟨log, htrace, hlog⟩ := exists_trace_run h.answers (turn step) state
    exact .worked hroute htrace hlog
  | watch race =>
    rcases hrun : (s.runWatched race.start (turn step)).run state with ⟨⟨run, race₁⟩, state₁⟩
    rcases hrace : (s.finishRace race₁).run state₁ with ⟨race₂, state₂⟩
    obtain ⟨moves, hsteps, hmoves⟩ := h.runWatched_steps race.start (turn step) state
    simp only [hrun] at hsteps
    have hcalm := (SessionStep.isCalm_start hroute).steps hmoves hsteps
    obtain ⟨moves', hsteps', hmoves', hend⟩ := h.finishRace_steps hcalm.race (.done run) state₁
    simp only [hrace] at hsteps' hend
    obtain ⟨watch, hwatch⟩ := Option.ne_none_iff_exists'.1 hend
    -- the two parts of the step in a row
    dsimp only
    rw [run_bind_eq hrun]
    dsimp only
    rw [run_bind_eq hrace, hwatch]
    refine .watched hroute (hsteps.append hsteps') (List.forall_mem_append.2 ⟨hmoves, hmoves'⟩) ?_
    simp [Live.result?, Deadline.Race.wait_false, hwatch]
    rfl

end Session.Surroundings
end AgentRelay
