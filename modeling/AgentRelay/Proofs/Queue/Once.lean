import AgentRelay.Proofs.Job.Line
import AgentRelay.Proofs.Job.OneLine
import AgentRelay.Proofs.Queue.Turn

/-!
# No key succeeds twice

As long as a worker lives it never has a job processed whose key belongs to one that succeeded before,
whatever happens to the queue file, to the cursor and to the cycles in between. The keys it has seen
are exactly those of the jobs that succeeded, and nothing makes it forget one: neither a cursor that is
not saved nor a file that starts over.

* `Worker.Life` is any number of cycles in a row.
* `Heeds` is the invariant of a log; each case of a turn keeps it.
* `Worker.no_success_repeats` is the result.
-/

namespace AgentRelay

open Script

namespace Exchange

/-- The keys that have been seen after an exchange: a success adds a key, unless it is empty. -/
def learn (seen : List String) : Exchange → List String
  | ⟨.process j, (r : Except Failure Unit)⟩ =>
    match r with
    | .ok () => if j.key.isEmpty then seen else j.key :: seen
    | .error _ => seen
  | _ => seen

theorem subset_learn (seen : List String) (x : Exchange) : seen ⊆ x.learn seen := by
  unfold learn
  split
  · split
    · split
      · exact List.Subset.refl _
      · exact List.subset_cons_self _ _
    · exact List.Subset.refl _
  · exact List.Subset.refl _

end Exchange

/-- No job in the log has a key that had been seen when it was handed over. The keys seen grow from
`seen` to `seen'` on the way. -/
inductive Heeds : List String → List Exchange → List String → Prop
  | nil (seen : List String) : Heeds seen [] seen
  | cons {x : Exchange} {log : List Exchange} {seen seen' : List String}
      (isNew : ∀ j ∈ x.job?, j.key = "" ∨ j.key ∉ seen) (rest : Heeds (x.learn seen) log seen') :
      Heeds seen (x :: log) seen'

namespace Heeds

variable {seen seen' seen'' : List String} {log log' : List Exchange} {x : Exchange}

theorem append (h : Heeds seen log seen') (h' : Heeds seen' log' seen'') :
    Heeds seen (log ++ log') seen'' := by
  induction h with
  | nil seen => exact h'
  | cons isNew _ ih => exact .cons isNew (ih h')

/-- An exchange that is not about a job changes nothing. -/
theorem other (hjob : x.job? = none) (hlearn : x.learn seen = seen) (h : Heeds seen log seen') :
    Heeds seen (x :: log) seen' := by
  refine .cons ?_ (by rwa [hlearn])
  simp [hjob]

theorem single (hjob : x.job? = none) (hlearn : x.learn seen = seen) : Heeds seen [x] seen :=
  .other hjob hlearn (.nil seen)

/-- A job that is handed over has no key that had been seen at the start. -/
theorem not_mem (h : Heeds seen log seen') {j : Job} {r : WorkerAnswer (.process j)}
    (hj : ⟨.process j, r⟩ ∈ log) : j.key = "" ∨ j.key ∉ seen := by
  induction h with
  | nil seen => cases hj
  | @cons x log seen seen' isNew rest ih =>
    rcases List.mem_cons.1 hj with rfl | hj
    · exact isNew j rfl
    · exact (ih hj).imp_right fun hnot hmem => hnot (Exchange.subset_learn seen x hmem)

/-- What follows a success has been told its key. -/
theorem after_success {pre post : List Exchange} {j : Job} (hkey : j.key ≠ "")
    (h : Heeds seen (pre ++ ⟨.process j, Except.ok ()⟩ :: post) seen') :
    ∃ seen'', j.key ∈ seen'' ∧ Heeds seen'' post seen' := by
  induction pre generalizing seen with
  | nil =>
    cases h with
    | cons isNew rest =>
      have hempty : j.key.isEmpty = false := by simpa using hkey
      refine ⟨_, ?_, rest⟩
      simp [Exchange.learn, hempty]
  | cons x pre ih =>
    cases h with
    | cons isNew rest => exact ih rest

end Heeds

/-! ### Every case of a turn heeds what has been seen -/

namespace Drain

variable {d d' : Drain} {log : List Exchange}

theorem Saves.heeds {offset : Nat} (h : d.Saves offset log d') :
    Heeds d.worker.seen log d'.worker.seen := by
  cases h <;> exact .single rfl rfl

theorem mem_seen_of_not_isDuplicate {w : Worker} {key : String} (h : isDuplicate w key = false) :
    key = "" ∨ key ∉ w.seen := by
  simpa [isDuplicate, imp_iff_not_or] using h

/-- A worker remembers no empty key. -/
theorem mem_remember {w : Worker} {key k : String} (h : key ∈ (remember w k).seen) :
    key ∈ w.seen ∨ key = k ∧ k ≠ "" := by
  unfold remember at h
  split at h
  next => exact .inl h
  next hempty =>
    rcases List.mem_cons.1 h with rfl | h
    · exact .inr ⟨rfl, by simpa using hempty⟩
    · exact .inl h

@[simp] theorem offset_remember (w : Worker) (k : String) : (remember w k).offset = w.offset := by
  unfold remember
  split <;> rfl

theorem Takes.heeds {line : Bytes} {next : Nat} (h : d.Takes line next log d') :
    Heeds d.worker.seen log d'.worker.seen := by
  cases h with
  | blank _ saves => exact saves.heeds
  | malformed => exact .nil _
  | duplicate _ _ _ saves => exact saves.heeds
  | @processed j log d' _ _ notSeen saves =>
    -- the worker remembers what the success teaches
    have hlearn : (remember d.worker j.key).seen =
        Exchange.learn d.worker.seen ⟨.process j, Except.ok ()⟩ := by
      unfold remember Exchange.learn
      split <;> simp_all
    refine .cons ?_ (hlearn ▸ saves.heeds)
    rintro k ⟨⟩
    exact mem_seen_of_not_isDuplicate notSeen
  | @stopped j _ _ notSeen cause =>
    refine .cons ?_ (.single rfl rfl)
    rintro k ⟨⟩
    exact mem_seen_of_not_isDuplicate notSeen
  | @failed j _ _ notSeen cause =>
    refine .cons ?_ (.single rfl rfl)
    rintro k ⟨⟩
    exact mem_seen_of_not_isDuplicate notSeen

theorem Turns.heeds (h : d.Turns log d') : Heeds d.worker.seen log d'.worker.seen := by
  cases h with
  | cancelled => exact .single rfl rfl
  | unread e => exact .other rfl rfl (.single rfl rfl)
  | unfinished => exact .other rfl rfl (.single rfl rfl)
  | taken _ takes => exact .other rfl rfl (.other rfl rfl takes.heeds)

theorem Opens.heeds (h : d.Opens log d') : Heeds d.worker.seen log d'.worker.seen := by
  cases h <;> exact .single rfl rfl

theorem Begins.heeds {w : Worker} (h : Begins w log d) : Heeds w.seen log d.worker.seen := by
  cases h with
  | cancelled => exact .single rfl rfl
  | missing => exact .other rfl rfl (.single rfl rfl)
  | unseen => exact .other rfl rfl (.single rfl rfl)
  | unreset => exact .other rfl rfl (.other rfl rfl (.single rfl rfl))
  | reset _ opens => exact .other rfl rfl (.other rfl rfl (.other rfl rfl opens.heeds))
  | onward _ opens => exact .other rfl rfl (.other rfl rfl opens.heeds)

/-- So do any number of turns. -/
theorem heeds_of_turns {n : Nat} (h : Trace (turns n d) log d') :
    Heeds d.worker.seen log d'.worker.seen := by
  induction n generalizing d log with
  | zero =>
    obtain ⟨rfl, rfl⟩ := trace_done_iff.1 h
    exact .nil _
  | succ n ih =>
    by_cases houtcome : d.outcome = none
    · rw [turns_succ houtcome] at h
      obtain ⟨log₁, d₁, log₂, rfl, hturn, hrest⟩ := trace_bind_iff.1 h
      exact (turns_of_trace hturn).heeds.append (ih hrest)
    · rw [turns_of_outcome houtcome] at h
      obtain ⟨rfl, rfl⟩ := trace_done_iff.1 h
      exact .nil _

end Drain

namespace Worker

/-- So does a cycle. -/
theorem heeds_of_drain {w : Worker} {n : Nat} {log : List Exchange} {d : Drain}
    (h : Trace (w.drain n) log d) : Heeds w.seen log d.worker.seen := by
  obtain ⟨log₁, d₁, log₂, rfl, hbegin, hturns⟩ := trace_bind_iff.1 h
  exact (Drain.begins_of_trace hbegin).heeds.append (Drain.heeds_of_turns hturns)

/-- The life of a worker: cycles in a row and pauses, all answered in any way, each cycle cut off
after any number of turns. -/
inductive Life (w : Worker) : List Exchange → Worker → Prop
  | start : Life w [] w
  | cycle {log log' : List Exchange} {w' : Worker} {n : Nat} {d : Drain} (past : Life w log w')
      (drain : Trace (w'.drain n) log' d) : Life w (log ++ log') d.worker
  | pause {log : List Exchange} {w' : Worker} (past : Life w log w') (interval : Span)
      (stops : Bool) : Life w (log ++ [⟨.pause interval, stops⟩]) w'

theorem Life.append {w w' w'' : Worker} {log log' : List Exchange} (h : Life w log w')
    (h' : Life w' log' w'') : Life w (log ++ log') w'' := by
  induction h' with
  | start => rwa [List.append_nil]
  | cycle _ drain ih =>
    rw [← List.append_assoc]
    exact .cycle ih drain
  | pause _ interval stops ih =>
    rw [← List.append_assoc]
    exact .pause ih interval stops

/-- A worker that runs until it is stopped leads such a life. -/
theorem life_of_run {w : Worker} {n cycles : Nat} {log : List Exchange} {d : Drain}
    (h : Trace (w.run n cycles) log d) : Life w log d.worker := by
  induction cycles generalizing w log with
  | zero =>
    obtain ⟨rfl, rfl⟩ := trace_done_iff.1 h
    exact .start
  | succ cycles ih =>
    obtain ⟨log₁, d₁, log₂, rfl, hdrain, hrest⟩ := trace_bind_iff.1 h
    have hcycle : Life w log₁ d₁.worker := Life.start.cycle hdrain
    split at hrest
    -- the cycle ended well: it was the only one, or a pause follows and then the rest of the run
    · split at hrest
      · obtain ⟨rfl, rfl⟩ := trace_done_iff.1 hrest
        rwa [List.append_nil]
      · obtain ⟨(stops : Bool), rest, rfl, hafter⟩ := trace_ask_iff.1 hrest
        have hpause := hcycle.pause w.config.pollInterval stops
        rw [← List.singleton_append, ← List.append_assoc]
        split at hafter
        · obtain ⟨rfl, rfl⟩ := trace_done_iff.1 hafter
          rwa [List.append_nil]
        · exact hpause.append (ih hafter)
    · obtain ⟨rfl, rfl⟩ := trace_done_iff.1 hrest
      rwa [List.append_nil]

theorem Life.heeds {w w' : Worker} {log : List Exchange} (h : Life w log w') :
    Heeds w.seen log w'.seen := by
  induction h with
  | start => exact .nil _
  | cycle _ drain ih => exact ih.append (heeds_of_drain drain)
  | pause _ interval stops ih => exact ih.append (.single rfl rfl)

/-- **No key succeeds twice.** When a job with a key has succeeded, the worker hands over no job with
that key for the rest of its life. -/
theorem no_success_repeats {w w' : Worker} {log pre post : List Exchange} {j : Job}
    (life : Life w log w') (hlog : log = pre ++ ⟨.process j, Except.ok ()⟩ :: post)
    (hkey : j.key ≠ "") :
    ∀ (k : Job) (r : WorkerAnswer (.process k)), ⟨.process k, r⟩ ∈ post → k.key ≠ j.key := by
  intro k r hk heq
  obtain ⟨seen, hmem, hpost⟩ := Heeds.after_success hkey (hlog ▸ life.heeds)
  rcases hpost.not_mem hk with hempty | hnot
  · exact hkey (heq ▸ hempty)
  · exact hnot (heq ▸ hmem)

/-- A job that is known by its key alone. -/
def jobOfKey (key : String) : Job := { contractVersion := Job.currentVersion, idempotencyKey := key }

theorem ofLine_jobOfKey {key : String} (h : Text.isBlankText key = false) :
    Job.ofLine (jobOfKey key).line = .ok (jobOfKey key) :=
  Job.IsKept.ofLine_line ⟨rfl, by simp [Job.isNameless, jobOfKey, h], SessionEvent.isNamed_default⟩

theorem isOneLine_jobOfKey (key : String) : Json.IsOneLine (jobOfKey key).json := by
  have hnull : Json.IsOneLine (Payload.json .null) := by
    unfold Json.IsOneLine
    decide
  exact Job.isOneLine_json hnull

/-- A queue file that was cut short is read from its start; the cursor is not saved behind its first
job. The next cycle passes that job over and hands over the one behind it. -/
theorem no_success_repeats_unsaved :
    ∃ w' log pre post, Life { config := {}, offset := 9 } log w' ∧
      log = pre ++ ⟨.process (jobOfKey "a"), Except.ok ()⟩ :: post ∧ (jobOfKey "a").key ≠ "" ∧
      ⟨.process (jobOfKey "b"), Except.error (.note "busy")⟩ ∈ post ∧
      (jobOfKey "b").key ≠ (jobOfKey "a").key := by
  have ha : Job.ofLine (jobOfKey "a").line = .ok (jobOfKey "a") := ofLine_jobOfKey (by decide)
  have hb : Job.ofLine (jobOfKey "b").line = .ok (jobOfKey "b") := ofLine_jobOfKey (by decide)
  have hkey : (jobOfKey "a").key ≠ "" := by decide
  have hremember : Drain.remember { config := {}, offset := 0 } (jobOfKey "a").key =
      { config := {}, offset := 0, seen := ["a"] } := by
    rw [show (jobOfKey "a").key = "a" by decide]
    rfl
  -- the first cycle: the job succeeds and the save behind it fails
  have hreset := Drain.Begins.reset (w := { config := {}, offset := 9 }) (show 0 < 9 by decide) .opened
  have hfirst := Drain.Turns.taken (d := { worker := { config := {}, offset := 0 } })
    (Job.getLast?_line (jobOfKey "a")) (.processed (by simp) ha (by decide)
      (.unsaved (.storage "cursor" .notFound)))
  simp only [hremember] at hfirst
  have hcycle := Life.start.cycle (n := 1) (trace_bind_iff.2 ⟨_, _, _, rfl, hreset.trace,
    hfirst.trace_turns rfl (Drain.trace_turns_of_outcome (by simp [Drain.fail]))⟩)
  -- the second cycle: the same line again, and another one
  have honward := Drain.Begins.onward (w := { config := {}, offset := 0, seen := ["a"] })
    (show 0 ≤ 9 by decide) .opened
  have hagain := Drain.Turns.taken (d := { worker := { config := {}, offset := 0, seen := ["a"] } })
    (Job.getLast?_line (jobOfKey "a")) (.duplicate (by simp) ha (by decide) .saved)
  simp only [Nat.zero_add] at hagain
  have hother := Drain.Turns.taken
    (d := { worker := { config := {}, offset := (jobOfKey "a").line.length, seen := ["a"] }
            report := { duplicates := 1 } })
    (Job.getLast?_line (jobOfKey "b")) (.stopped (by simp) hb (by decide) (.note "busy"))
  have hlife := hcycle.cycle (n := 2) (trace_bind_iff.2 ⟨_, _, _, rfl, honward.trace,
    hagain.trace_turns rfl (hother.trace_turns rfl
      (Drain.trace_turns_of_outcome (by simp [Drain.finish])))⟩)
  simp only [List.cons_append, List.nil_append] at hlife
  refine ⟨_, _, [_, _, _, _, _, _], _, hlife, rfl, hkey, ?_,
    no_success_repeats hlife (show _ = [_, _, _, _, _, _] ++ _ from rfl) hkey (jobOfKey "b")
      (Except.error (.note "busy")) ?_⟩
  · simp
  · simp

end Worker
end AgentRelay
