import AgentRelay.Proofs.Queue.Delivery
import AgentRelay.Proofs.Session.InOrder

/-!
# Accepted deliveries are processed

The job of a delivery is an event that the rules accept, also when it is read back from its line. So
processing it succeeds, and the worker passes its line, as long as nothing but the delivery itself is in
the way. The deliveries that are in the way of themselves are those that create a session without an id.

* `Drain.Turns.of_ends` is what the worker makes of the result of processing.
* `SessionStep.ends_of_delivery` is the processing of the job of a delivery.
-/

namespace AgentRelay

open Script

namespace SessionStep

variable {config : DeadlineConfig} {records : Bool}

theorem ends_ofJob_iff {j : Job} (h : j.event.check = .ok ()) {result : Except SessionError Unit} :
    (ofJob j).Ends config records result ↔
      result = if j.event.LacksSession then .error (.deadline .missingSessionId) else .ok () :=
  ends_iff h

end SessionStep

/-- A worker that finds the line of an accepted job passes it, unless the job lacks its session and its
key has not been seen. -/
theorem Drain.Turns.of_ends {d d' : Drain} {log : List Exchange} {j : Job} {config : DeadlineConfig}
    {records : Bool} (h : d.Turns log d') (hline : d.FindsLine j.line log) (hj : j.IsKept)
    (hcheck : j.event.check = .ok ())
    (hprocess : ∀ r, ⟨.process j, r⟩ ∈ log → ∃ result,
      (SessionStep.ofJob j).Ends config records result ∧ r = result.mapError SessionError.failure) :
    if j.event.LacksSession ∧ isDuplicate d.worker j.key = false then
      d' = d.fail (.processor j.id (SessionError.deadline .missingSessionId).failure)
    else d'.worker = passed d.worker j ∧ d'.outcome = d.outcome := by
  obtain ⟨-, ⟨hworker, houtcome, hok⟩ | ⟨cause, hnew, hfailed, rfl⟩⟩ := h.of_findsLine hline hj
  -- the line was passed: the job has succeeded, or its key had been seen
  · rw [if_neg]
    · exact ⟨hworker, houtcome⟩
    · rintro ⟨hlacks, hnew⟩
      obtain ⟨result, hends, hr⟩ := hprocess _ (hok hnew)
      rw [SessionStep.ends_ofJob_iff hcheck, if_pos hlacks] at hends
      subst hends
      cases hr
  -- the job has failed, and there is only one way to fail
  · obtain ⟨result, hends, hr⟩ := hprocess _ hfailed
    rw [SessionStep.ends_ofJob_iff hcheck] at hends
    by_cases hlacks : j.event.LacksSession
    · rw [if_pos hlacks] at hends
      subst hends
      rw [if_pos ⟨hlacks, hnew⟩, Except.error.inj hr]
    · rw [if_neg hlacks] at hends
      subst hends
      cases hr

namespace SessionStep

/-- What becomes of a job when nobody cancels and no call fails. -/
structure EndsCalmly (j : Job) (config : DeadlineConfig) (records : Bool) : Prop where
  read_back : Job.ofLine j.line = .ok j
  /-- Processing succeeds in whatever order its moves are made. -/
  ends_iff : ∀ result, (ofJob j).Ends config records result ↔
    result = if j.event.LacksSession then .error (.deadline .missingSessionId) else .ok ()
  /-- So it does in surroundings where every call succeeds. -/
  process : ∀ (σ : Type) (s : Session.Surroundings (StateM σ) TurnAnswer) (state : σ), s.Succeeds →
    ((s.process config turn (ofJob j)).run state).1 =
      if j.event.LacksSession then .error (.deadline .missingSessionId) else .ok ()
  /-- Whatever moves were made, others lead to the end. -/
  reaches_end : ∀ race moves l, (ofJob j).route config records = .watch race →
    Live.Steps (.start race (turn (ofJob j))) moves l → (∀ m ∈ moves, m.IsCalm Turn.Succeeds) →
    ∃ moves' l', Live.Steps l moves' l' ∧ (∀ m ∈ moves', m.IsCalm Turn.Succeeds) ∧
      l'.result? false = some (.ok ())
  /-- A worker passes the line of the job, or it stays in front of a session without an id. -/
  passed : ∀ d d' log, Trace (Drain.turn d) log d' → d.FindsLine j.line log →
    (∀ r, ⟨.process j, r⟩ ∈ log → ∃ result,
      (ofJob j).Ends config records result ∧ r = result.mapError SessionError.failure) →
    if j.event.LacksSession ∧ Drain.isDuplicate d.worker j.key = false then
      d' = d.fail (.processor j.id (SessionError.deadline .missingSessionId).failure)
    else d'.worker = Drain.passed d.worker j ∧ d'.outcome = d.outcome

/-- **Accepted deliveries are processed.** The job of a delivery is read back from its line. When
nobody cancels and no call fails, processing it succeeds in whatever order its moves are made, unless it
creates a session without an id; then it is refused. A worker passes the line of the job, with that one
exception: there it stays. -/
theorem ends_of_delivery {j : Job} {body : Bytes} {delivery : Delivery} (h : j.IsFrom body delivery)
    (config : DeadlineConfig) (records : Bool) : EndsCalmly j config records := by
  obtain ⟨hkept, -⟩ := h.isKept
  obtain ⟨-, hcheck⟩ := SessionEvent.decode_eq_ok h.says.1
  refine ⟨hkept.ofLine_line, fun result => ends_ofJob_iff hcheck, ?_, ?_, ?_⟩
  · intro σ s state hs
    exact (ends_ofJob_iff hcheck).1 (hs.ends_process state)
  · intro race moves l hroute hsteps hmoves
    exact exists_result hroute hsteps hmoves
  · intro d d' log htrace hline hprocess
    exact (Drain.turns_of_trace htrace).of_ends hline hkept hcheck hprocess

/-- A body that creates a session with an id. -/
def errand : Bytes :=
  Bytes.utf8 "\x7b\"payloadVersion\":1,\"action\":\"created\",\"agentSession\":\x7b\"id\":\"s\",\"state\":\"pending\"\x7d\x7d"

theorem exists_isFrom_of_any (body : Bytes) (delivery : Delivery) {p : SessionEvent → Bool}
    (hevent : (SessionEvent.decode body).toOption.any p = true)
    (hpayload : (Payload.ofBody body).isOk = true) :
    ∃ j : Job, j.IsFrom body delivery ∧ p j.event = true := by
  obtain ⟨payload, hpayload⟩ := Job.exists_of_isOk hpayload
  obtain ⟨e, he, hp⟩ := Job.exists_of_any hevent
  obtain ⟨j, hj⟩ := Job.exists_isFrom delivery he hpayload
  obtain rfl := Except.ok.inj (he.symm.trans hj.says.1)
  exact ⟨j, hj, hp⟩

/-- The errand is processed well in obliging surroundings, and a new worker that finds it passes it. -/
theorem ends_of_delivery_errand :
    ∃ (j : Job) (d d' : Drain) (log : List Exchange), j.IsFrom errand ⟨none, .epoch⟩ ∧
      (∀ result, (ofJob j).Ends {} true result ↔ result = .ok ()) ∧
      ((Session.Surroundings.obliging.process {} turn (ofJob j)).run ()).1 = .ok () ∧
      Trace (Drain.turn d) log d' ∧ d.FindsLine j.line log ∧
      d'.worker = Drain.passed d.worker j ∧ d'.outcome = d.outcome := by
  obtain ⟨j, hj, hfilled⟩ := exists_isFrom_of_any errand ⟨none, .epoch⟩
    (p := fun e => !decide e.LacksSession) (by decide +kernel) (by decide +kernel)
  have hlacks : ¬ j.event.LacksSession := by simpa using hfilled
  have hcalm := ends_of_delivery hj {} true
  have hends := hcalm.ends_iff
  have hprocess := hcalm.process
  simp only [if_neg hlacks] at hends hprocess
  let d : Drain := { worker := { config := {}, offset := 0 } }
  have hnew : Drain.isDuplicate d.worker j.key = false := by simp [Drain.isDuplicate, d]
  obtain ⟨log, d', hturn, hfinds, hdone⟩ := Drain.exists_findsLine d hj.isKept.1 hnew
  have hpassed := hcalm.passed d d' log hturn.trace hfinds fun r hr =>
    ⟨.ok (), (hends _).2 rfl, hdone r hr⟩
  rw [if_neg fun h => hlacks h.1] at hpassed
  exact ⟨j, d, d', log, hj, hends, hprocess Unit _ () Session.Surroundings.succeeds_obliging,
    hturn.trace, hfinds, hpassed⟩

/-- Not every accepted delivery is processed well: a greeting has no session id. -/
theorem not_ends_ok_of_delivery :
    ¬ ∀ (body : Bytes) (delivery : Delivery) (j : Job) (config : DeadlineConfig) (records : Bool)
      (result : Except SessionError Unit), j.IsFrom body delivery →
      (ofJob j).Ends config records result → result = .ok () := by
  intro h
  obtain ⟨j, hj, hblank⟩ := exists_isFrom_of_any Worker.greeting ⟨none, .epoch⟩
    (p := fun e => decide e.LacksSession) (by decide +kernel) (by decide +kernel)
  obtain ⟨-, hcheck⟩ := SessionEvent.decode_eq_ok hj.says.1
  have hends : (ofJob j).Ends {} true (.error (.deadline .missingSessionId)) := by
    rw [ends_ofJob_iff hcheck, if_pos (of_decide_eq_true hblank)]
  cases h _ _ j {} true _ hj hends

end SessionStep
end AgentRelay
