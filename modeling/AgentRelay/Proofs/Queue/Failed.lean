import AgentRelay.Proofs.Job.Line
import AgentRelay.Proofs.Queue.Turn
import AgentRelay.Service
import Mathlib.Data.List.Basic

/-!
# What a failed job ends

A job that fails ends the cycle that it is handed over in. When the worker is being stopped, the cycle ends
well; otherwise the run ends with the failure of the job.

* `Drain.Fails` is the turn in which a job fails, `Drain.Turns.fails` says that there is no other.
* `Worker.fails_of_drain` finds that turn at the end of its cycle, `Service.eq_of_failed` is what a run that
  is not stopped ends with.
* `Worker.trace_drain_line` is such a cycle.
-/

namespace AgentRelay

open Script

namespace Drain

variable {d d' : Drain} {log : List Exchange} {j : Job} {cause : Failure}

/-- A turn hands over the job of a line, the job fails, and the worker is or is not being stopped. -/
inductive Fails (d : Drain) (j : Job) (cause : Failure) : List Exchange → Drain → Prop
  | intro {line : Bytes} (isComplete : line.getLast? = some 10)
      (notBlank : (Bytes.trimAscii line).isEmpty = false) (reads : Job.ofLine line = .ok j)
      (notSeen : isDuplicate d.worker j.key = false) (stops : Bool) :
      Fails d j cause
        [⟨.isCancelled, false⟩, ⟨.line d.worker.config.queuePath d.worker.offset, Except.ok line⟩,
          ⟨.process j, Except.error cause⟩, ⟨.isCancelled, stops⟩]
        (if stops then d.finish else d.fail (.processor j.id cause))

theorem Fails.turns (h : d.Fails j cause log d') : d.Turns log d' := by
  obtain ⟨isComplete, notBlank, reads, notSeen, stops⟩ := h
  cases stops with
  | true => exact .taken isComplete (.stopped notBlank reads notSeen cause)
  | false => exact .taken isComplete (.failed notBlank reads notSeen cause)

theorem not_failed_of_job? (h : ∀ x ∈ log, x.job? = none) : ⟨.process j, Except.error cause⟩ ∉ log :=
  fun hmem => nomatch h _ hmem

theorem Saves.not_failed {offset : Nat} (h : d.Saves offset log d') :
    ⟨.process j, Except.error cause⟩ ∉ log :=
  not_failed_of_job? (by cases h <;> simp [Exchange.job?])

/-- A turn in which a job fails is of this form. -/
theorem Turns.fails (h : d.Turns log d') (hfailed : ⟨.process j, Except.error cause⟩ ∈ log) :
    d.Fails j cause log d' := by
  cases h with
  | cancelled => exact absurd hfailed (not_failed_of_job? (by simp [Exchange.job?]))
  | unread e => exact absurd hfailed (not_failed_of_job? (by simp [Exchange.job?]))
  | unfinished => exact absurd hfailed (not_failed_of_job? (by simp [Exchange.job?]))
  | taken isComplete takes =>
    have hfailed := (List.mem_cons.1 ((List.mem_cons.1 hfailed).resolve_left nofun)).resolve_left nofun
    cases takes with
    | blank _ saves => exact absurd hfailed saves.not_failed
    | malformed => cases hfailed
    | duplicate _ _ _ saves => exact absurd hfailed saves.not_failed
    | processed _ _ _ saves =>
      exact absurd ((List.mem_cons.1 hfailed).resolve_left nofun) saves.not_failed
    | stopped notBlank reads notSeen cause =>
      simp only [List.mem_cons, List.not_mem_nil, or_false] at hfailed
      rcases hfailed with heq | heq <;> cases heq
      exact .intro isComplete notBlank reads notSeen true
    | failed notBlank reads notSeen cause =>
      simp only [List.mem_cons, List.not_mem_nil, or_false] at hfailed
      rcases hfailed with heq | heq <;> cases heq
      exact .intro isComplete notBlank reads notSeen false

theorem Begins.not_failed {w : Worker} (h : Begins w log d) :
    ⟨.process j, Except.error cause⟩ ∉ log := by
  apply not_failed_of_job?
  cases h with
  | reset _ opens => cases opens <;> simp [Exchange.job?]
  | onward _ opens => cases opens <;> simp [Exchange.job?]
  | _ => simp [Exchange.job?]

theorem Fails.outcome_ne (h : d.Fails j cause log d') : d'.outcome ≠ none := by
  obtain ⟨-, -, -, -, _ | _⟩ := h <;> exact nofun

/-- Turns in which a job fails are turns that go well, and then the one in which it fails. -/
theorem fails_of_turns {n : Nat} (h : Trace (turns n d) log d')
    (hfailed : ⟨.process j, Except.error cause⟩ ∈ log) :
    ∃ m d₁ past last, log = past ++ last ∧ Trace (turns m d) past d₁ ∧ d₁.outcome = none ∧
      d₁.Fails j cause last d' := by
  induction n generalizing d log with
  | zero =>
    obtain ⟨rfl, -⟩ := trace_done_iff.1 h
    cases hfailed
  | succ n ih =>
    by_cases hd : d.outcome = none
    · rw [turns_succ hd] at h
      obtain ⟨log₁, d₁, log₂, rfl, hturn, hrest⟩ := trace_bind_iff.1 h
      have hturn := turns_of_trace hturn
      rcases List.mem_append.1 hfailed with hfirst | hlater
      -- the job fails in this turn, and no turn follows
      · have hfails := hturn.fails hfirst
        rw [turns_of_outcome hfails.outcome_ne] at hrest
        obtain ⟨rfl, rfl⟩ := trace_done_iff.1 hrest
        exact ⟨0, d, [], log₁, List.append_nil _, .done d, hd, hfails⟩
      · obtain ⟨m, d₂, past, last, rfl, hpast, hgoesOn, hfails⟩ := ih hrest hlater
        exact ⟨m + 1, d₂, log₁ ++ past, last, (List.append_assoc ..).symm, hturn.trace_turns hd hpast,
          hgoesOn, hfails⟩
    · rw [turns_of_outcome hd] at h
      obtain ⟨rfl, -⟩ := trace_done_iff.1 h
      cases hfailed

end Drain

variable {j : Job} {cause : Failure} {log : List Exchange}

namespace Worker

variable {w : Worker} {n cycles : Nat} {d : Drain}

/-- A cycle in which a job fails is one that was cut off earlier, and then the turn in which it fails. -/
theorem fails_of_drain (h : Trace (w.drain n) log d) (hfailed : ⟨.process j, Except.error cause⟩ ∈ log) :
    ∃ m d₁ past last, log = past ++ last ∧ Trace (w.drain m) past d₁ ∧ d₁.outcome = none ∧
      d₁.Fails j cause last d := by
  obtain ⟨log₁, d₀, log₂, rfl, hbegin, hturns⟩ := trace_bind_iff.1 h
  have hlater := (List.mem_append.1 hfailed).resolve_left (Drain.begins_of_trace hbegin).not_failed
  obtain ⟨m, d₁, past, last, rfl, hpast, hgoesOn, hfails⟩ := Drain.fails_of_turns hturns hlater
  exact ⟨m, d₁, log₁ ++ past, last, (List.append_assoc ..).symm,
    trace_bind_iff.2 ⟨log₁, d₀, past, rfl, hbegin, hpast⟩, hgoesOn, hfails⟩

/-- In front of a job that fails its line is read, and behind it the cycle ends with a look at whether the
worker is being stopped. -/
theorem fails_at {before after : List Exchange}
    (h : Trace (w.drain n) (before ++ ⟨.process j, Except.error cause⟩ :: after) d) :
    ∃ line, ∃ stops : Bool, ∃ past, line.getLast? = some 10 ∧ (Bytes.trimAscii line).isEmpty = false ∧
      Job.ofLine line = .ok j ∧ Drain.isDuplicate d.worker j.key = false ∧
      before = past ++ [⟨.isCancelled, false⟩,
        ⟨.line d.worker.config.queuePath d.worker.offset, Except.ok line⟩] ∧
      after = [⟨.isCancelled, stops⟩] ∧
      d.outcome = some (if stops then .ok () else .error (.processor j.id cause)) := by
  obtain ⟨m, d₁, past, last, hlog, hpast, hgoesOn, hfails⟩ :=
    fails_of_drain h (List.mem_append_right _ List.mem_cons_self)
  -- the job has not failed before
  have hfirst : ⟨.process j, Except.error cause⟩ ∉ past := fun hmem => by
    obtain ⟨_, _, _, _, _, _, _, hfailed⟩ := fails_of_drain hpast hmem
    exact hfailed.outcome_ne hgoesOn
  obtain ⟨isComplete, notBlank, reads, notSeen, stops⟩ := hfails
  rename_i line
  -- nor is it handed over by the other exchanges of the turn
  have hlooks : ∀ x ∈ ([⟨.isCancelled, false⟩,
      ⟨.line d₁.worker.config.queuePath d₁.worker.offset, Except.ok line⟩] : List Exchange),
      x.job? = none := by simp [Exchange.job?]
  have hlook : ∀ x ∈ ([⟨.isCancelled, stops⟩] : List Exchange), x.job? = none := by
    simp [Exchange.job?]
  have hfront : ⟨.process j, Except.error cause⟩ ∉ past ++ [⟨.isCancelled, false⟩,
      ⟨.line d₁.worker.config.queuePath d₁.worker.offset, Except.ok line⟩] :=
    fun hmem => (List.mem_append.1 hmem).elim hfirst (Drain.not_failed_of_job? hlooks)
  have hcut : past ++ [⟨.isCancelled, false⟩,
      ⟨.line d₁.worker.config.queuePath d₁.worker.offset, Except.ok line⟩] ++
        ⟨.process j, Except.error cause⟩ :: [⟨.isCancelled, stops⟩] =
      before ++ ⟨.process j, Except.error cause⟩ :: after := by
    rw [hlog, List.append_assoc]
    rfl
  obtain ⟨rfl, -, rfl⟩ :=
    (List.append_cons_inj_of_notMem hfront (Drain.not_failed_of_job? hlook)).1 hcut
  have hworker : (if stops then d₁.finish else d₁.fail (.processor j.id cause)).worker = d₁.worker := by
    cases stops <;> rfl
  rw [hworker]
  refine ⟨line, stops, past, isComplete, notBlank, reads, notSeen, rfl, rfl, ?_⟩
  cases stops <;> rfl

/-- A new worker finds one line and hands over its job, which fails. -/
theorem trace_drain_line (config : WorkerConfig) (hkept : j.IsKept) (cause : Failure) (stops : Bool) :
    Trace (drain 1 { config, offset := 0 })
      [⟨.isCancelled, false⟩, ⟨.size config.queuePath, Except.ok j.line.length⟩,
        ⟨.openQueue config.queuePath, Except.ok ()⟩, ⟨.isCancelled, false⟩,
        ⟨.line config.queuePath 0, Except.ok j.line⟩, ⟨.process j, Except.error cause⟩, ⟨.isCancelled, stops⟩]
      (if stops then Drain.finish { worker := { config, offset := 0 } }
        else Drain.fail { worker := { config, offset := 0 } } (.processor j.id cause)) := by
  have hbegins := Drain.Begins.onward (w := { config, offset := 0 }) (Nat.zero_le j.line.length) .opened
  have hfails : Drain.Fails { worker := { config, offset := 0 } } j cause _ _ :=
    .intro (Job.getLast?_line j) (by simp) hkept.ofLine_line (by simp [Drain.isDuplicate]) stops
  exact trace_bind_iff.2 ⟨_, _, _, rfl, hbegins.trace,
    hfails.turns.trace_turns rfl (Drain.trace_turns_of_outcome hfails.outcome_ne)⟩

/-- A cycle that is not stopped ends with the failure of the job that fails in it. -/
theorem outcome_of_failed (h : Trace (w.drain n) log d) (hfailed : ⟨.process j, Except.error cause⟩ ∈ log)
    (hgoesOn : ⟨.isCancelled, true⟩ ∉ log) : d.outcome = some (.error (.processor j.id cause)) := by
  obtain ⟨m, d₁, past, last, rfl, -, -, -, -, -, -, stops⟩ := fails_of_drain h hfailed
  cases stops with
  | true => simp at hgoesOn
  | false => rfl

/-- So does a run. -/
theorem outcome_of_run_failed (h : Trace (w.run n cycles) log d)
    (hfailed : ⟨.process j, Except.error cause⟩ ∈ log) (hgoesOn : ⟨.isCancelled, true⟩ ∉ log) :
    d.outcome = some (.error (.processor j.id cause)) := by
  induction cycles generalizing w log with
  | zero =>
    obtain ⟨rfl, -⟩ := trace_done_iff.1 h
    cases hfailed
  | succ cycles ih =>
    obtain ⟨log₁, d₁, log₂, rfl, hdrain, hrest⟩ := trace_bind_iff.1 h
    obtain ⟨hgoesOn₁, hgoesOn₂⟩ := not_or.1 (mt List.mem_append.2 hgoesOn)
    rcases List.mem_append.1 hfailed with hfirst | hlater
    -- the job fails in this cycle, and nothing follows
    · have hfailure := outcome_of_failed hdrain hfirst hgoesOn₁
      rw [hfailure] at hrest
      obtain ⟨rfl, rfl⟩ := trace_done_iff.1 hrest
      exact hfailure
    -- the cycle ended well, and a pause and the other cycles follow
    · split at hrest
      · split at hrest
        · obtain ⟨rfl, -⟩ := trace_done_iff.1 hrest
          cases hlater
        · obtain ⟨(stops : Bool), rest, rfl, hafter⟩ := trace_ask_iff.1 hrest
          have hlater := (List.mem_cons.1 hlater).resolve_left nofun
          split at hafter
          · obtain ⟨rfl, -⟩ := trace_done_iff.1 hafter
            cases hlater
          · exact ih hafter hlater (fun hmem => hgoesOn₂ (List.mem_cons_of_mem _ hmem))
      · obtain ⟨rfl, -⟩ := trace_done_iff.1 hrest
        cases hlater

end Worker

/-- A worker that is started, not stopped and whose job fails ends with the failure of this job. -/
theorem Service.eq_of_failed {config : WorkerConfig} {n cycles : Nat} {r : Except Failure Unit}
    (h : Trace (Service.work config n cycles) log r) (hfailed : ⟨.process j, Except.error cause⟩ ∈ log)
    (hgoesOn : ⟨.isCancelled, true⟩ ∉ log) : r = .error (WorkerError.processor j.id cause).failure := by
  obtain ⟨log₁, started, log₂, rfl, hstart, hrest⟩ := trace_bind_iff.1 h
  have hnone : ⟨.process j, Except.error cause⟩ ∉ log₁ := by
    apply Drain.not_failed_of_job?
    unfold Worker.start at hstart
    split at hstart
    · simp [(trace_done_iff.1 hstart).1]
    · split at hstart
      · simp [(trace_done_iff.1 hstart).1]
      · obtain ⟨loaded, rest, rfl, hdone⟩ := trace_ask_iff.1 hstart
        simp [(trace_done_iff.1 hdone).1, Exchange.job?]
  have hlater := (List.mem_append.1 hfailed).resolve_left hnone
  cases started with
  | error e =>
    obtain ⟨rfl, -⟩ := trace_done_iff.1 hrest
    cases hlater
  | ok w =>
    obtain ⟨log₃, d, log₄, rfl, hrun, hdone⟩ := trace_bind_iff.1 hrest
    obtain ⟨rfl, rfl⟩ := trace_done_iff.1 hdone
    rw [List.append_nil] at hlater hgoesOn
    have hgoesOn := fun hmem => hgoesOn (List.mem_append_right log₁ hmem)
    rw [Worker.outcome_of_run_failed hrun hlater hgoesOn]

end AgentRelay
