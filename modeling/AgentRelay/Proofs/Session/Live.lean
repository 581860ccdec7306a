import AgentRelay.Proofs.Trace
import AgentRelay.Session.Process

/-!
# The moves of a created step

While a created step is under way, its runner and the race for its first thought move side by side, in
any order. Without a cancelled call and without a failed one the race ends well, and the step can always
be brought to its end.

* `Live.Step` is one move, `Live.Steps` any number of them. `Live.wellFounded_changes` says that they
  come to an end.
* `Live.Move.IsCalm` is a move that is not cancelled and that fails at nothing. `Live.IsCalm.result?`
  and `Live.IsCalm.exists_result` are the ends of steps that make such moves alone.
-/

namespace AgentRelay

open Script

/-! ### The race -/

namespace Deadline.Race

/-- The race is under way, or it has ended well. -/
def IsCalm (r : Race) : Prop :=
  match r.stage with
  | .racing | .expired | .posting | .finished (.ok _) => True
  | .notStarted | .recording _ | .finished (.error _) => False

variable {r : Race}

theorem isCalm_start {e : SessionEvent} {config : DeadlineConfig} {records : Bool} {r : Race}
    (h : of? e config records = .ok r) : r.start.IsCalm := by
  unfold of? at h
  split at h
  · cases h
  · cases h
    unfold start IsCalm
    cases e.isCreated <;> trivial

theorem IsCalm.markObserved (h : r.IsCalm) : r.markObserved.IsCalm := h

theorem IsCalm.decide (h : r.IsCalm) (expired : Bool) : (r.decide false expired).IsCalm := by
  unfold Race.decide
  split
  · cases r.observed <;> cases expired <;> simp_all [IsCalm, finish]
  · exact h

theorem IsCalm.recheck (h : r.IsCalm) : r.recheck.IsCalm := by
  unfold Race.recheck
  split
  · cases r.observed <;> simp [IsCalm, finish]
  · exact h

theorem IsCalm.posted (h : r.IsCalm) (now : Instant) (id : String) :
    (r.posted now (.ok id)).IsCalm := by
  unfold Race.posted
  split
  · simp [IsCalm]
  · exact h

theorem IsCalm.recorded (h : r.IsCalm) (result : Except Failure Unit) :
    (r.recorded result).IsCalm := by
  unfold Race.recorded
  split
  · simp_all [IsCalm]
  · exact h

theorem IsCalm.result? (h : r.IsCalm) {result : Except DeadlineError Outcome}
    (hresult : r.result? = some result) : ∃ outcome, result = .ok outcome := by
  unfold Race.result? at hresult
  unfold IsCalm at h
  split at hresult
  · cases result with
    | ok outcome => exact ⟨outcome, rfl⟩
    | error e => simp_all
  · cases hresult

/-- Who is not cancelled is told the result of the race and nothing else. -/
theorem wait_false (r : Race) : r.wait false = r.result? := by
  unfold wait
  cases r.result? <;> rfl

end Deadline.Race

namespace Live

variable {Q : Type} {R : Q → Type}

/-- A move of a created step. -/
inductive Move (R : Q → Type)
  /-- The runner is answered. -/
  | answered (question : RunnerQuestion Q) (answer : RunnerAnswer R question)
  | decided (cancelled expired : Bool)
  | rechecked
  | posted (now : Instant) (result : Except Failure String)
  | recorded (result : Except Failure Unit)

/-- What a move does to the race; the answers to the runner are no moves of the race. -/
def Move.race? : Move R → Option (Deadline.Race → Deadline.Race)
  | .answered _ _ => none
  | .decided cancelled expired => some fun r => r.decide cancelled expired
  | .rechecked => some Deadline.Race.recheck
  | .posted now result => some fun r => r.posted now result
  | .recorded result => some fun r => r.recorded result

/-- One move. -/
inductive Step : Live R → Move R → Live R → Prop
  | answered {race : Deadline.Race} {q : RunnerQuestion Q} {next : RunnerAnswer R q → Runner R}
      (r : RunnerAnswer R q) :
      Step ⟨race, .ask q next⟩ (.answered q r) (answered ⟨race, .ask q next⟩ q next r)
  | watched {l : Live R} {m : Move R} {move : Deadline.Race → Deadline.Race}
      (isRace : m.race? = some move) : Step l m (l.watched move)

theorem Step.eq_watched {l l' : Live R} {m : Move R} {move : Deadline.Race → Deadline.Race}
    (h : Step l m l') (hm : m.race? = some move) : l' = l.watched move := by
  cases h with
  | answered r => cases hm
  | watched isRace => rw [Option.some.inj (hm.symm.trans isRace)]

/-- Any number of moves. -/
inductive Steps : Live R → List (Move R) → Live R → Prop
  | refl (l : Live R) : Steps l [] l
  | head {l l' l'' : Live R} {m : Move R} {moves : List (Move R)} (first : Step l m l')
      (rest : Steps l' moves l'') : Steps l (m :: moves) l''

theorem Steps.append {l l' l'' : Live R} {moves moves' : List (Move R)} (h : Steps l moves l')
    (h' : Steps l' moves' l'') : Steps l (moves ++ moves') l'' := by
  induction h with
  | refl l => exact h'
  | head first _ ih => exact .head first (ih h')

/-! ### No endless run -/

/-- How far a race is from its end. -/
def rank (r : Deadline.Race) : Nat :=
  match r.stage with
  | .notStarted => 5
  | .racing => 4
  | .expired => 3
  | .posting => 2
  | .recording _ => 1
  | .finished _ => 0

/-- A move of the race changes nothing or brings it closer to its end. -/
theorem rank_lt {m : Move R} {move : Deadline.Race → Deadline.Race} (h : m.race? = some move)
    (race : Deadline.Race) : move race = race ∨ rank (move race) < rank race := by
  cases m with
  | answered q r => cases h
  | decided cancelled expired =>
    cases h
    cases hstage : race.stage <;> cases cancelled <;> cases hobserved : race.observed <;>
      cases expired <;> simp [Deadline.Race.decide, Deadline.Race.finish, rank, hstage, hobserved]
  | rechecked =>
    cases h
    cases hstage : race.stage <;> cases hobserved : race.observed <;>
      simp [Deadline.Race.recheck, Deadline.Race.finish, rank, hstage, hobserved]
  | posted now result =>
    cases h
    cases hstage : race.stage <;> cases result <;> cases hrecords : race.records <;>
      simp [Deadline.Race.posted, Deadline.Race.finish, rank, hstage, hrecords]
  | recorded result =>
    cases h
    cases hstage : race.stage <;> cases result <;>
      simp [Deadline.Race.recorded, Deadline.Race.finish, rank, hstage]

/-- The moves that change a step. -/
def Changes (l' l : Live R) : Prop := l' ≠ l ∧ ∃ m, Step l m l'

/-- Between two answers the race can only move closer to its end. -/
theorem acc_changes {runner : Runner R}
    (h : ∀ race q r l', Step ⟨race, runner⟩ (.answered q r) l' → Acc Changes l')
    (race : Deadline.Race) : Acc Changes (⟨race, runner⟩ : Live R) := by
  induction hrank : rank race using Nat.strongRecOn generalizing race with
  | _ n ih =>
    refine .intro _ fun l' hl' => ?_
    obtain ⟨hne, m, hstep⟩ := hl'
    -- either the runner is answered, or the race moves closer to its end
    cases hmove : m.race? with
    | none =>
      cases m with
      | answered q r => exact h race q r l' hstep
      | _ => cases hmove
    | some move =>
      obtain rfl : l' = ⟨move race, runner⟩ := hstep.eq_watched hmove
      rcases rank_lt hmove race with hsame | hlt
      · exact absurd (congrArg (Live.mk · runner) hsame) hne
      · exact ih _ (hrank ▸ hlt) _ rfl

/-- Whoever answers and in whatever order, a step does not go on changing for ever. -/
theorem wellFounded_changes : WellFounded (Changes (R := R)) := by
  refine ⟨fun ⟨race, runner⟩ => ?_⟩
  induction runner generalizing race with
  | done run =>
    refine acc_changes (fun race q r l' hstep => ?_) race
    cases hstep with
    | watched isRace => cases isRace
  | ask q next ih =>
    refine acc_changes (fun race q r l' hstep => ?_) race
    cases hstep with
    | answered r => exact ih r _
    | watched isRace => cases isRace

/-! ### Calm moves -/

variable {good : (q : RunnerQuestion Q) → RunnerAnswer R q → Prop}

/-- Nobody cancels, the runner is answered well, and what the race asks for succeeds. -/
def Move.IsCalm (good : (q : RunnerQuestion Q) → RunnerAnswer R q → Prop) : Move R → Prop
  | .answered q r => good q r
  | .decided cancelled _ => cancelled = false
  | .rechecked => True
  | .posted _ result => ∃ id, result = .ok id
  | .recorded result => result = .ok ()

/-- The race is calm and the runner will end well. -/
structure IsCalm (good : (q : RunnerQuestion Q) → RunnerAnswer R q → Prop) (l : Live R) : Prop where
  race : l.race.IsCalm
  runner : l.runner.Yields good (· = .ok ())

theorem IsCalm.step {l l' : Live R} {m : Move R} (h : l.IsCalm good) (hm : m.IsCalm good)
    (hstep : Step l m l') : l'.IsCalm good := by
  cases hstep with
  | @answered race q next r =>
    refine ⟨?_, h.runner r hm⟩
    -- a thought that was posted is seen by the race
    cases q with
    | think p =>
      cases (r : Except Failure String) with
      | ok id => exact h.race.markObserved
      | error e => exact h.race
    | other q => exact h.race
  | watched isRace =>
    refine ⟨?_, h.runner⟩
    cases m with
    | answered q r => cases isRace
    | decided cancelled expired =>
      obtain rfl : cancelled = false := hm
      cases isRace
      exact h.race.decide expired
    | rechecked =>
      cases isRace
      exact h.race.recheck
    | posted now result =>
      obtain ⟨id, rfl⟩ : ∃ id, result = .ok id := hm
      cases isRace
      exact h.race.posted now id
    | recorded result =>
      cases isRace
      exact h.race.recorded result

theorem IsCalm.steps {l l' : Live R} {moves : List (Move R)} (h : l.IsCalm good)
    (hmoves : ∀ m ∈ moves, m.IsCalm good) (hsteps : Steps l moves l') : l'.IsCalm good := by
  induction hsteps with
  | refl l => exact h
  | head first _ ih =>
    obtain ⟨hm, hmoves⟩ := List.forall_mem_cons.1 hmoves
    exact ih (h.step hm first) hmoves

/-- A calm step that has a result has succeeded. -/
theorem IsCalm.result? {l : Live R} (h : l.IsCalm good) {result : Except SessionError Unit}
    (hresult : l.result? false = some result) : result = .ok () := by
  obtain ⟨race, runner⟩ := l
  cases runner with
  | ask q next => cases hresult
  | done run =>
    obtain rfl : run = .ok () := h.runner
    obtain ⟨watch, hwatch, rfl⟩ := Option.map_eq_some_iff.1 hresult
    rw [Deadline.Race.wait_false] at hwatch
    obtain ⟨outcome, rfl⟩ := h.race.result? hwatch
    rfl

/-! ### The way to the end -/

/-- The runner can be brought to its end. -/
theorem exists_runner_done (hgood : ∀ q, ∃ r : RunnerAnswer R q, good q r) (race : Deadline.Race)
    (runner : Runner R) :
    ∃ moves race' run, Steps ⟨race, runner⟩ moves ⟨race', .done run⟩ ∧
      ∀ m ∈ moves, m.IsCalm good := by
  induction runner generalizing race with
  | done run => exact ⟨[], race, run, .refl _, by simp⟩
  | ask q next ih =>
    obtain ⟨r, hr⟩ := hgood q
    obtain ⟨moves, race', run, hsteps, hmoves⟩ := ih r (observe race q r)
    exact ⟨.answered q r :: moves, race', run, .head (.answered r) hsteps,
      List.forall_mem_cons.2 ⟨hr, hmoves⟩⟩

/-- The moves with which a race ends when nothing else ends it: the deadline passes, no thought has
come, and the fallback is posted. -/
def endMoves : List (Move R) := [.decided false true, .rechecked, .posted .epoch (.ok "")]

theorem isCalm_endMoves : ∀ m ∈ (endMoves : List (Move R)), m.IsCalm good := by
  simp [endMoves, Move.IsCalm]

/-- A calm race ends with them, wherever it stands. -/
theorem exists_race_ended {race : Deadline.Race} (h : race.IsCalm) (runner : Runner R) :
    ∃ race', Steps ⟨race, runner⟩ endMoves ⟨race', runner⟩ ∧ race'.result? ≠ none := by
  refine ⟨((race.decide false true).recheck).posted .epoch (.ok ""),
    .head (.watched rfl) (.head (.watched rfl) (.head (.watched rfl) (.refl _))), ?_⟩
  unfold Deadline.Race.IsCalm at h
  cases hstage : race.stage with
  | notStarted => simp [hstage] at h
  | recording v => simp [hstage] at h
  | _ =>
    cases hobserved : race.observed <;>
      simp [Deadline.Race.decide, Deadline.Race.recheck, Deadline.Race.posted,
        Deadline.Race.result?, Deadline.Race.finish, hstage, hobserved]

/-- A calm step can be brought to its end. -/
theorem IsCalm.exists_result (hgood : ∀ q, ∃ r : RunnerAnswer R q, good q r) {l : Live R}
    (h : l.IsCalm good) :
    ∃ moves l', Steps l moves l' ∧ (∀ m ∈ moves, m.IsCalm good) ∧
      l'.result? false = some (.ok ()) := by
  -- first the runner, then the race
  obtain ⟨moves, race, run, hsteps, hmoves⟩ := exists_runner_done hgood l.race l.runner
  obtain ⟨race', hrace, hend⟩ := exists_race_ended (h.steps hmoves hsteps).race (.done run : Runner R)
  have hall : ∀ m ∈ moves ++ endMoves, m.IsCalm good :=
    List.forall_mem_append.2 ⟨hmoves, isCalm_endMoves⟩
  have hlast := hsteps.append hrace
  refine ⟨moves ++ endMoves, ⟨race', .done run⟩, hlast, hall, ?_⟩
  have hresult : ∃ r, (⟨race', .done run⟩ : Live R).result? false = some r := by
    obtain ⟨watch, hwatch⟩ := Option.ne_none_iff_exists'.1 hend
    exact ⟨joinResults run watch, by simp [Live.result?, Deadline.Race.wait_false, hwatch]⟩
  obtain ⟨r, hr⟩ := hresult
  rw [hr, (h.steps hall hlast).result? hr]

end Live
end AgentRelay
