import AgentRelay.Proofs.Queue.Cycles
import AgentRelay.Proofs.Queue.Failed
import AgentRelay.Proofs.Session.Shutdown

/-!
# A worker that is stopped in the middle of a job

When the context is cancelled while a job is processed, and the request for its response has not gone out, the
job fails, its response does not go out, and the cycle ends well in front of the line of the job. So the next
run hands the same job over.

* `Worker.cursorAfter_of_drain` says that a worker stands at the saved offset when its cycle is over.
* `Worker.hands_over_first` is what a worker in front of the line of a job does.
* `Worker.shutdown_keeps_job` is the result.
-/

namespace AgentRelay

open Script

/-! ### The saved offset -/

/-- A worker that stands at the saved offset does so after every exchange. -/
theorem Stage.Moves.offset_eq {st st' : Stage} {x : Exchange} {cursor : Nat} (h : st.Moves x st')
    (hoffset : st.worker.offset = cursor) : st'.worker.offset = x.cursorAfter cursor := by
  cases h with
  | looks w isLook =>
    rw [Exchange.cursorAfter, isLook.saved?]
    exact hoffset
  | succeeded w j next =>
    simp only [Stage.worker, Drain.offset_remember]
    exact hoffset
  | saved w next => rfl
  | _ => exact hoffset

/-- A worker that starts at the saved offset stands at it when its cycle is over. -/
theorem Worker.cursorAfter_of_drain {w : Worker} {n : Nat} {log : List Exchange} {d : Drain}
    (h : Trace (w.drain n) log d) : log.foldl Exchange.cursorAfter w.offset = d.worker.offset := by
  have hgoes : Drain.Goes (w.drain n) (.free w) := Worker.follows_drain n w
  obtain ⟨_, rfl, hoffset⟩ := Follows.exists_end (I := fun st cursor => st.worker.offset = cursor)
    Stage.Moves.offset_eq hgoes h rfl
  exact hoffset.symm

/-- The empty key is never remembered. -/
theorem Stage.Moves.empty_notMem_seen {st st' : Stage} {x : Exchange} (h : st.Moves x st')
    (hseen : "" ∉ st.worker.seen) : "" ∉ st'.worker.seen := by
  cases h with
  | succeeded w j next =>
    intro hmem
    simp only [Stage.worker] at hmem
    rcases Drain.mem_remember hmem with hbefore | ⟨hempty, hkey⟩
    · exact hseen hbefore
    · exact hkey hempty.symm
  | _ => exact hseen

theorem Worker.empty_notMem_seen_of_drain {w : Worker} {n : Nat} {log : List Exchange} {d : Drain}
    (h : Trace (w.drain n) log d) (hseen : "" ∉ w.seen) : "" ∉ d.worker.seen := by
  have hgoes : Drain.Goes (w.drain n) (.free w) := Worker.follows_drain n w
  obtain ⟨_, rfl, hkept⟩ := Follows.exists_end (I := fun st (_ : Unit) => "" ∉ st.worker.seen)
    (f := fun u _ => u) Stage.Moves.empty_notMem_seen hgoes h (c := ()) hseen
  exact hkept

/-! ### The next run -/

/-- The worker is not stopped and finds a file as it is. Jobs end as they like. -/
def Exchange.IsFound (content : Bytes) : Exchange → Prop
  | ⟨.isCancelled, r⟩ => r = false
  | ⟨.size _, r⟩ => r = Except.ok content.length
  | ⟨.openQueue _, r⟩ => r = Except.ok ()
  | ⟨.line _ offset, r⟩ => r = Except.ok (firstLine (content.drop offset))
  | _ => True

variable {content line : Bytes} {log : List Exchange} {d : Drain} {j : Job} {n : Nat}

/-- A turn in front of the line of a job that the worker has not seen hands this job over. -/
theorem Drain.Turns.hands_over {d' : Drain} (h : d.Turns log d') (hfound : ∀ x ∈ log, x.IsFound content)
    (hline : HasLine content d.worker.offset line) (notBlank : (Bytes.trimAscii line).isEmpty = false)
    (reads : Job.ofLine line = .ok j) (notSeen : isDuplicate d.worker j.key = false) :
    (log.filterMap Exchange.job?).head? = some j := by
  cases h with
  | cancelled => cases hfound _ List.mem_cons_self
  | unread e => cases hfound _ (List.mem_cons_of_mem _ List.mem_cons_self)
  | unfinished isUnfinished =>
    have hread := Except.ok.inj (hfound _ (List.mem_cons_of_mem _ List.mem_cons_self))
    exact absurd hline.isComplete (by rwa [hread, hline.isFirst] at isUnfinished)
  | taken isComplete takes =>
    obtain rfl := (Except.ok.inj (hfound _ (List.mem_cons_of_mem _ List.mem_cons_self))).trans hline.isFirst
    cases takes with
    | blank isBlank => simp [notBlank] at isBlank
    | malformed _ reads' => cases reads.symm.trans reads'
    | duplicate _ reads' isSeen =>
      obtain rfl := Except.ok.inj (reads.symm.trans reads')
      exact absurd isSeen (by simp [notSeen])
    | processed _ reads' => rw [Except.ok.inj (reads.symm.trans reads')]; rfl
    | stopped _ reads' => rw [Except.ok.inj (reads.symm.trans reads')]; rfl
    | failed _ reads' => rw [Except.ok.inj (reads.symm.trans reads')]; rfl

/-- A worker in front of the line of a job that it has not seen hands this job over first. -/
theorem Worker.hands_over_first {w : Worker} (h : Trace (w.drain (n + 1)) log d)
    (hfound : ∀ x ∈ log, x.IsFound content) (hline : HasLine content w.offset line)
    (notBlank : (Bytes.trimAscii line).isEmpty = false) (reads : Job.ofLine line = .ok j)
    (notSeen : Drain.isDuplicate w j.key = false) : (log.filterMap Exchange.job?).head? = some j := by
  obtain ⟨log₁, d₀, log₂, rfl, hbegin, hturns⟩ := trace_bind_iff.1 h
  obtain ⟨hfound₁, hfound₂⟩ := List.forall_mem_append.1 hfound
  have hoffset : w.offset ≤ content.length := by
    have := hline.next_le
    omega
  obtain ⟨rfl, hlooks⟩ := (Drain.begins_of_trace hbegin).looks
    (fun hmem => by cases hfound₁ _ hmem) (fun r hmem => hfound₁ _ hmem) (fun r hmem => hfound₁ _ hmem) hoffset
  have hnone : log₁.filterMap Exchange.job? = [] :=
    List.filterMap_eq_nil_iff.2 fun x hx => (hlooks x hx).job?
  rw [Drain.turns_succ rfl] at hturns
  obtain ⟨log₃, d₁, log₄, rfl, hturn, -⟩ := trace_bind_iff.1 hturns
  obtain ⟨hfound₃, -⟩ := List.forall_mem_append.1 hfound₂
  have hfirst := (Drain.turns_of_trace hturn).hands_over hfound₃ hline notBlank reads notSeen
  rw [List.filterMap_append, List.filterMap_append, hnone, List.nil_append, List.head?_append, hfirst]
  rfl

/-! ### The cycle that is stopped -/

/-- Where a cycle stands that went through `log` and had a job processed behind `before`: in front of the line
of the job, with the job for the next worker to do. -/
structure Worker.StandsBefore (w : Worker) (line : Bytes) (j : Job) (before log : List Exchange) (d : Drain) :
    Prop where
  outcome : d.outcome = some (.ok ())
  unseen : "" ∉ w.seen → j.key ∉ d.worker.seen
  isLine : Job.ofLine line = .ok j
  /-- The line at the offset is what was read last. -/
  read_last : ∃ past, before = past ++ [⟨.isCancelled, false⟩,
    ⟨.line d.worker.config.queuePath d.worker.offset, Except.ok line⟩]
  /-- The offset is the saved one. -/
  saved : log.foldl Exchange.cursorAfter w.offset = d.worker.offset
  /-- A new worker that starts there and finds the line hands the job over first. -/
  hands_over : ∀ content config m (log' : List Exchange) d', HasLine content d.worker.offset line →
    Trace (Worker.drain (m + 1) { config, offset := d.worker.offset }) log' d' →
    (∀ x ∈ log', x.IsFound content) → (log'.filterMap Exchange.job?).head? = some j

/-- What a job comes to that is cancelled before the request for its response has gone out. -/
structure Job.KeptThroughShutdown (j : Job) (client : Tracker.Client) (config : DeadlineConfig)
    (records : Bool) : Prop where
  /-- Processing comes to its end, however the questions that are left are answered. -/
  ends : ∀ x y log, (SessionStep.ofJob j).scene client config records = .ok x → x.Run log y →
    ¬ Scene.Started (SessionStep.ofJob j).responseKey y log →
    ∀ answer, (∀ q, StepAnswer.Fits true ⟨q, answer q⟩) →
      ∃ log' result, y.cancel.Run log' (y.cancel.finish answer) ∧
        (y.cancel.finish answer).result? = some result ∧
        (SessionStep.ofJob j).Interrupted client config records (Scene.sent (log ++ log')) result
  /-- Whenever it ends, it ends with a failure. -/
  fails : ∀ posts result, (SessionStep.ofJob j).Interrupted client config records posts result →
    ∃ e, result = .error e
  /-- The response does not go out. -/
  silent : ∀ posts result, (SessionStep.ofJob j).Interrupted client config records posts result →
    ∀ p ∈ posts, p.key ≠ (SessionStep.ofJob j).responseKey
  /-- A worker that is told from then on that it is being stopped stands in front of the line of the job. -/
  keeps : ∀ posts result, (SessionStep.ofJob j).Interrupted client config records posts result →
    ∀ (w : Worker) n d before after,
      Trace (w.drain n) (before ++ ⟨.process j, result.mapError SessionError.failure⟩ :: after) d →
      ⟨.isCancelled, false⟩ ∉ after → ∃ line,
        w.StandsBefore line j before
          (before ++ ⟨.process j, result.mapError SessionError.failure⟩ :: after) d

/-- A worker that is stopped while it has a job processed stands in front of the line of the job. -/
theorem Worker.standsBefore_of_failed {w : Worker} {j : Job} {f : Failure} {n : Nat} {d : Drain}
    {before after : List Exchange} (hcycle : Trace (w.drain n) (before ++ ⟨.process j, Except.error f⟩ :: after) d)
    (hstays : ⟨.isCancelled, false⟩ ∉ after) :
    ∃ line, w.StandsBefore line j before (before ++ ⟨.process j, Except.error f⟩ :: after) d := by
  obtain ⟨line, stops, past, isComplete, notBlank, reads, notSeen, rfl, rfl, houtcome⟩ := fails_at hcycle
  obtain rfl : stops = true := by
    cases stops with
    | true => rfl
    | false => exact absurd List.mem_cons_self hstays
  refine ⟨line, houtcome, fun hseen hmem => ?_, reads, ⟨past, rfl⟩, cursorAfter_of_drain hcycle, ?_⟩
  · rcases Drain.mem_seen_of_not_isDuplicate notSeen with hempty | hnot
    · exact empty_notMem_seen_of_drain hcycle hseen (hempty ▸ hmem)
    · exact hnot hmem
  · intro content config m log d' hline hnext hfound
    exact hands_over_first hnext hfound hline notBlank reads (by simp [Drain.isDuplicate])

/-- **A job outlives a shutdown.** The context of a job is cancelled before the request for its response has gone
out. Then processing comes to its end however the questions that are left are answered, and whenever it ends, it
ends with a failure and the response does not go out. When the worker is told from then on that it is being
stopped, its cycle ends well; it still stands at the start of the line of the job, which is also the saved
offset, and it has not seen the key. So a new worker that starts at the saved offset and finds the line hands the
job over first. -/
theorem Worker.shutdown_keeps_job (j : Job) (client : Tracker.Client) (config : DeadlineConfig)
    (records : Bool) : j.KeptThroughShutdown client config records where
  ends x y log hstart hrun hearly answer hanswer := by
    obtain ⟨log', result, hrun', hresult⟩ := y.exists_end hanswer
    exact ⟨log', result, hrun', hresult, .stopped hstart hrun hearly hrun' hresult⟩
  fails _ _ hinterrupted := hinterrupted.fails.1
  silent _ _ hinterrupted := hinterrupted.fails.2
  keeps posts result hinterrupted w n d before after hcycle hstays := by
    obtain ⟨e, rfl⟩ := hinterrupted.fails.1
    exact standsBefore_of_failed hcycle hstays

/-- A job of a prompt. -/
def prompt : Job :=
  { contractVersion := Job.currentVersion, idempotencyKey := "k", event := { action := .known .prompted } }

/-- Calls are broken off in a cancelled context, and so is the agent. -/
def StepAnswer.brokenOff : (q : StepQuestion) → StepAnswer q
  | .tracker _ .isCancelled => true
  | .tracker _ (.exchange _) => Tracker.Exchange.cancelled
  | .agent _ => Except.error (.note "interrupted")
  | .deadlinePasses _ => false
  | .now => .epoch

theorem isKept_prompt : prompt.IsKept :=
  ⟨rfl, by decide +kernel,
    ⟨WireName.isNamed_ofName "prompted", WireName.isNamed_ofName "", by simp [prompt]⟩⟩

/-- The context is cancelled in front of the thought of the prompt. The cycle ends well in front of its line,
and the next worker hands the prompt over. -/
theorem Worker.shutdown_keeps_job_prompt :
    ∃ posts e d log d', (SessionStep.ofJob prompt).Interrupted ⟨"e", "t"⟩ {} true posts (.error e) ∧
      (∀ p ∈ posts, p.key ≠ "k:response") ∧
      Trace (Worker.drain 1 { config := { queuePath := "q" }, offset := 0 })
        [⟨.isCancelled, false⟩, ⟨.size "q", Except.ok prompt.line.length⟩,
          ⟨.openQueue "q", Except.ok ()⟩, ⟨.isCancelled, false⟩,
          ⟨.line "q" 0, Except.ok prompt.line⟩, ⟨.process prompt, Except.error e.failure⟩,
          ⟨.isCancelled, true⟩] d ∧
      d.outcome = some (.ok ()) ∧ d.worker.offset = 0 ∧ prompt.key ∉ d.worker.seen ∧
      Trace (Worker.drain 1 { config := { queuePath := "q" }, offset := 0 }) log d' ∧
      (log.filterMap Exchange.job?).head? = some prompt := by
  have hkept := shutdown_keeps_job prompt ⟨"e", "t"⟩ {} true
  have hearly : ¬ Scene.Started (SessionStep.ofJob prompt).responseKey
      { race := none, work := (SessionStep.ofJob prompt).calls ⟨"e", "t"⟩ } [] :=
    Scene.not_started (SessionStep.guarded_calls _ _)
  have hfits : ∀ q, StepAnswer.Fits true ⟨q, StepAnswer.brokenOff q⟩ := by
    rintro (⟨post, _ | request⟩ | request | span | _) <;> trivial
  obtain ⟨log', result, -, -, hinterrupted⟩ := hkept.ends _ _ [] rfl .start hearly _ hfits
  obtain ⟨e, rfl⟩ := hkept.fails _ _ hinterrupted
  have hdrain := Worker.trace_drain_line { queuePath := "q" } isKept_prompt e.failure true
  obtain ⟨line, hstands⟩ := hkept.keeps _ _ hinterrupted { config := { queuePath := "q" }, offset := 0 } 1 _
    [_, _, _, _, _] [⟨.isCancelled, true⟩] hdrain fun hmem => by cases List.mem_singleton.1 hmem
  -- the line is the one that was read last
  obtain ⟨past, hbefore⟩ := hstands.read_last
  have hreread : ([_, _, _] : List Exchange) ++ [_, _] = past ++ [_, _] := hbefore
  obtain ⟨-, hlast⟩ := List.append_inj' hreread rfl
  obtain rfl : prompt.line = line := by
    cases hlast
    rfl
  have hline : HasLine prompt.line 0 prompt.line :=
    Job.hasLine_line (Job.isOneLine_json (by unfold Json.IsOneLine; decide))
  have hagain := trace_eval (answersFor prompt.line) (drain 1 { config := { queuePath := "q" }, offset := 0 })
  refine ⟨_, e, _, _, _, hinterrupted, hkept.silent _ _ hinterrupted, hdrain, hstands.outcome, rfl,
    hstands.unseen (by simp), hagain,
    hstands.hands_over prompt.line { queuePath := "q" } 0 _ _ hline hagain fun x hx => ?_⟩
  have hanswer := answer_of_mem_log hx
  obtain ⟨q, r⟩ := x
  cases q <;> first | exact hanswer | trivial

end AgentRelay
