import AgentRelay.Proofs.Event.Named
import AgentRelay.Proofs.Session.Live
import AgentRelay.Proofs.Text.Trim

/-!
# What processing ends with

Nobody cancels and no call fails. Then processing the step of an event that the rules accept succeeds,
whatever the order of its moves, with one exception: the rules accept an event that creates a session
without an id, and the watch over its first thought does not.

* `SessionStep.Ends` are the results that processing may have, by the way it goes.
* `SessionStep.ends_iff` says that there is just one for every event that the rules accept.
* `SessionStep.exists_result` says that a created step cannot get stuck.
-/

namespace AgentRelay

open Script

/-- The event creates a session that has no id. -/
def SessionEvent.LacksSession (e : SessionEvent) : Prop :=
  e.isCreated = true ∧ Text.isBlankText e.session.id = true

instance (e : SessionEvent) : Decidable e.LacksSession := inferInstanceAs (Decidable (_ ∧ _))

/-! ### Work on a step -/

namespace Turn

/-- The call succeeds. Links are best effort, so any answer to them will do. -/
def Succeeds : (q : RunnerQuestion TurnQuestion) → RunnerAnswer TurnAnswer q → Prop
  | .think _, r => ∃ id, r = Except.ok id
  | .other (.runAgent _), r => ∃ outcome : AgentOutcome, r = Except.ok outcome ∧ outcome.failed = false
  | .other (.link _), _ => True
  | .other (.respond _), r => ∃ id, r = Except.ok id

theorem exists_succeeds (q : RunnerQuestion TurnQuestion) : ∃ r, Succeeds q r := by
  match q with
  | .think _ => exact ⟨Except.ok "", "", rfl⟩
  | .other (.runAgent _) => exact ⟨Except.ok .completed, .completed, rfl, rfl⟩
  | .other (.link _) => exact ⟨Except.ok (), trivial⟩
  | .other (.respond _) => exact ⟨Except.ok "", "", rfl⟩

/-- Work on a step succeeds when every call does. -/
theorem yields_turn (s : SessionStep) : (turn s).Yields Succeeds (· = .ok ()) := by
  rintro _ ⟨id, rfl⟩
  rintro _ ⟨outcome, rfl, hfailed⟩
  have hfailure : runFailure? (.ok outcome) = none := by
    simp [runFailure?, AgentOutcome.failure?, hfailed]
  have hrespond : (respond s none).Yields Succeeds (· = .ok ()) := by
    rintro _ ⟨id, rfl⟩
    rfl
  simp only [hfailure]
  split
  · exact hrespond
  · intro r hr
    exact hrespond

end Turn

namespace SessionStep

/-- The results that processing may have when nobody cancels and every call succeeds. A created step may
make its moves in any order. -/
inductive Ends (s : SessionStep) (config : DeadlineConfig) (records : Bool) :
    Except SessionError Unit → Prop
  | refused {e : SessionError} (route : s.route config records = .refuse e) :
      Ends s config records (.error e)
  | worked {log : List (Sigma (RunnerAnswer TurnAnswer))} {run : Except Failure Unit}
      (route : s.route config records = .work) (trace : Trace (turn s) log run)
      (succeeds : ∀ x ∈ log, Turn.Succeeds x.1 x.2) : Ends s config records (run.mapError .prompted)
  | watched {race : Deadline.Race} {moves : List (Live.Move TurnAnswer)} {l : Live TurnAnswer}
      {result : Except SessionError Unit} (route : s.route config records = .watch race)
      (steps : Live.Steps (.start race (turn s)) moves l)
      (succeeds : ∀ m ∈ moves, m.IsCalm Turn.Succeeds) (ended : l.result? false = some result) :
      Ends s config records result

variable {s : SessionStep} {config : DeadlineConfig} {records : Bool}

/-- The race that a step is watched by is calm at its start. -/
theorem isCalm_of_route {race : Deadline.Race} (h : s.route config records = .watch race) :
    race.start.IsCalm := by
  unfold route at h
  split at h
  · split at h
    · cases h
      exact Deadline.Race.isCalm_start ‹_›
    · cases h
  · cases h
  · cases h

/-- The watch over the first thought needs a session id, and nothing else is refused of an event that
the rules accept. -/
theorem route_of_check (h : s.event.check = .ok ()) :
    s.event.LacksSession ∧ s.route config records = .refuse (.deadline .missingSessionId) ∨
      ¬ s.event.LacksSession ∧
        (s.route config records = .work ∨ ∃ race, s.route config records = .watch race) := by
  obtain ⟨-, hknown, -⟩ := SessionEvent.check_eq_ok h
  match haction : s.event.action with
  | .known .created =>
    have hcreated : s.event.isCreated = true := by simp [SessionEvent.isCreated, haction]
    -- the watch looks at the trimmed id, the rules do not look at it at all
    by_cases hblank : Text.isBlankText s.event.session.id = true
    · have hid : s.event.sessionId = "" := Text.trim_eq_empty_iff.2 hblank
      have hrace : Deadline.Race.of? s.event config records = .error .missingSessionId := by
        simp [Deadline.Race.of?, hcreated, hid]
      exact .inl ⟨⟨hcreated, hblank⟩, by simp [route, haction, hrace]⟩
    · have hid : s.event.sessionId ≠ "" := fun h => hblank (Text.trim_eq_empty_iff.1 h)
      obtain ⟨race, hrace⟩ : ∃ race, Deadline.Race.of? s.event config records = .ok race := by
        simp [Deadline.Race.of?, hcreated, hid]
      exact .inr ⟨fun h => hblank h.2, .inr ⟨race, by simp [route, haction, hrace]⟩⟩
  | .known .prompted =>
    have hother : s.event.isCreated = false := by simp [SessionEvent.isCreated, haction]
    refine .inr ⟨fun h => ?_, .inl (by simp [route, haction])⟩
    exact absurd h.1 (by simp [hother])
  | .unknown name => simp [haction, WireName.isKnown] at hknown

theorem isCalm_start {race : Deadline.Race} (h : s.route config records = .watch race) :
    (Live.start race (turn s)).IsCalm Turn.Succeeds := ⟨isCalm_of_route h, Turn.yields_turn s⟩

theorem ends_iff_of_refuse {e : SessionError} (h : s.route config records = .refuse e)
    {result : Except SessionError Unit} : s.Ends config records result ↔ result = .error e := by
  constructor
  · intro hends
    cases hends with
    | refused route => rw [Route.refuse.inj (route.symm.trans h)]
    | worked route _ _ => cases route.symm.trans h
    | watched route _ _ _ => cases route.symm.trans h
  · rintro rfl
    exact .refused h

theorem ends_iff_of_work (h : s.route config records = .work) {result : Except SessionError Unit} :
    s.Ends config records result ↔ result = .ok () := by
  constructor
  · intro hends
    cases hends with
    | refused route => cases route.symm.trans h
    | worked _ trace succeeds =>
      obtain rfl := (Turn.yields_turn s).of_trace trace succeeds
      rfl
    | watched route _ _ _ => cases route.symm.trans h
  · rintro rfl
    obtain ⟨log, run, trace, succeeds⟩ := exists_trace Turn.exists_succeeds (turn s)
    obtain rfl := (Turn.yields_turn s).of_trace trace succeeds
    exact .worked h trace succeeds

theorem ends_iff_of_watch {race : Deadline.Race} (h : s.route config records = .watch race)
    {result : Except SessionError Unit} : s.Ends config records result ↔ result = .ok () := by
  constructor
  · intro hends
    cases hends with
    | refused route => cases route.symm.trans h
    | worked route _ _ => cases route.symm.trans h
    | watched route steps succeeds ended =>
      obtain rfl := Route.watch.inj (route.symm.trans h)
      exact ((isCalm_start h).steps succeeds steps).result? ended
  · rintro rfl
    obtain ⟨moves, l, steps, succeeds, ended⟩ := (isCalm_start h).exists_result Turn.exists_succeeds
    exact .watched h steps succeeds ended

/-- What processing the step of an accepted event ends with when nobody cancels and every call
succeeds. -/
theorem ends_iff (h : s.event.check = .ok ()) {result : Except SessionError Unit} :
    s.Ends config records result ↔
      result = if s.event.LacksSession then .error (.deadline .missingSessionId) else .ok () := by
  rcases route_of_check h with ⟨hlacks, hroute⟩ | ⟨hlacks, hroute | ⟨race, hroute⟩⟩
  · rw [if_pos hlacks]
    exact ends_iff_of_refuse hroute
  · rw [if_neg hlacks]
    exact ends_iff_of_work hroute
  · rw [if_neg hlacks]
    exact ends_iff_of_watch hroute

/-- A created step whose moves so far were calm can still be brought to a good end. -/
theorem exists_result {race : Deadline.Race} {moves : List (Live.Move TurnAnswer)}
    {l : Live TurnAnswer} (hroute : s.route config records = .watch race)
    (hsteps : Live.Steps (.start race (turn s)) moves l)
    (hmoves : ∀ m ∈ moves, m.IsCalm Turn.Succeeds) :
    ∃ moves' l', Live.Steps l moves' l' ∧ (∀ m ∈ moves', m.IsCalm Turn.Succeeds) ∧
      l'.result? false = some (.ok ()) :=
  ((isCalm_start hroute).steps hmoves hsteps).exists_result Turn.exists_succeeds

end SessionStep
end AgentRelay
