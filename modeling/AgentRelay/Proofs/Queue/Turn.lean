import AgentRelay.Proofs.Trace
import AgentRelay.Queue.Worker

/-!
# What a worker does in one turn

The exchanges of a worker with its surroundings, case by case: how a cycle begins, and what becomes of
the line that a turn takes. Everything that is proved of a worker rests on these cases, not on the
scripts themselves.

* `Drain.Begins`, `Drain.Turns`, `Drain.Takes` and `Drain.Saves` list the cases.
* `Drain.begins_of_trace` and `Drain.turns_of_trace` say that there are no others.
-/

namespace AgentRelay

open Script

/-- A question of a worker and the answer to it. -/
abbrev Exchange := Sigma WorkerAnswer

/-- The job that is handed over for processing. -/
def Exchange.job? : Exchange → Option Job
  | ⟨.process j, _⟩ => some j
  | _ => none

namespace Drain

variable {d d' : Drain} {log : List Exchange}

/-- An offset is saved, or not. -/
inductive Saves (d : Drain) (offset : Nat) : List Exchange → Drain → Prop
  | saved : Saves d offset [⟨.saveCursor offset, Except.ok ()⟩]
      { d with worker := { d.worker with offset } }
  | unsaved (e : CursorError) :
      Saves d offset [⟨.saveCursor offset, Except.error e⟩] (d.fail (.checkpoint e))

/-- What becomes of a complete line that ends at `next`. -/
inductive Takes (d : Drain) (line : Bytes) (next : Nat) : List Exchange → Drain → Prop
  | blank {log : List Exchange} {d' : Drain} (isBlank : (Bytes.trimAscii line).isEmpty = true)
      (saves : Saves { d with report := { d.report with blank := d.report.blank + 1 } } next log d') :
      Takes d line next log d'
  | malformed {e : Job.LineError} (notBlank : (Bytes.trimAscii line).isEmpty = false)
      (reads : Job.ofLine line = .error e) :
      Takes d line next [] (d.fail (.record d.worker.offset e))
  | duplicate {j : Job} {log : List Exchange} {d' : Drain}
      (notBlank : (Bytes.trimAscii line).isEmpty = false) (reads : Job.ofLine line = .ok j)
      (isSeen : isDuplicate d.worker j.key = true)
      (saves : Saves { d with report := { d.report with duplicates := d.report.duplicates + 1 } }
        next log d') : Takes d line next log d'
  | processed {j : Job} {log : List Exchange} {d' : Drain}
      (notBlank : (Bytes.trimAscii line).isEmpty = false) (reads : Job.ofLine line = .ok j)
      (notSeen : isDuplicate d.worker j.key = false)
      (saves : Saves { d with
        worker := remember d.worker j.key
        report := { d.report with processed := d.report.processed + 1 } } next log d') :
      Takes d line next (⟨.process j, Except.ok ()⟩ :: log) d'
  | stopped {j : Job} (notBlank : (Bytes.trimAscii line).isEmpty = false)
      (reads : Job.ofLine line = .ok j) (notSeen : isDuplicate d.worker j.key = false)
      (cause : Failure) :
      Takes d line next [⟨.process j, Except.error cause⟩, ⟨.isCancelled, true⟩] d.finish
  | failed {j : Job} (notBlank : (Bytes.trimAscii line).isEmpty = false)
      (reads : Job.ofLine line = .ok j) (notSeen : isDuplicate d.worker j.key = false)
      (cause : Failure) :
      Takes d line next [⟨.process j, Except.error cause⟩, ⟨.isCancelled, false⟩]
        (d.fail (.processor j.id cause))

/-- One turn. -/
inductive Turns (d : Drain) : List Exchange → Drain → Prop
  | cancelled : Turns d [⟨.isCancelled, true⟩] d.finish
  | unread (e : OsError) :
      Turns d [⟨.isCancelled, false⟩,
          ⟨.line d.worker.config.queuePath d.worker.offset, Except.error e⟩]
        (d.fail (.queue "read" d.worker.config.queuePath e))
  | unfinished {line : Bytes} (isUnfinished : line.getLast? ≠ some 10) :
      Turns d [⟨.isCancelled, false⟩,
          ⟨.line d.worker.config.queuePath d.worker.offset, Except.ok line⟩] d.finish
  | taken {line : Bytes} {log : List Exchange} {d' : Drain} (isComplete : line.getLast? = some 10)
      (takes : Takes d line (d.worker.offset + line.length) log d') :
      Turns d (⟨.isCancelled, false⟩ ::
        ⟨.line d.worker.config.queuePath d.worker.offset, Except.ok line⟩ :: log) d'

/-- The file is opened, or not. -/
inductive Opens (d : Drain) : List Exchange → Drain → Prop
  | opened : Opens d [⟨.openQueue d.worker.config.queuePath, Except.ok ()⟩] d
  | missing : Opens d [⟨.openQueue d.worker.config.queuePath, Except.error .notFound⟩] d.finish
  | unopened {e : OsError} (isOther : e ≠ .notFound) :
      Opens d [⟨.openQueue d.worker.config.queuePath, Except.error e⟩]
        (d.fail (.queue "open" d.worker.config.queuePath e))

/-- The beginning of a cycle. -/
inductive Begins (w : Worker) : List Exchange → Drain → Prop
  | cancelled : Begins w [⟨.isCancelled, true⟩] (finish { worker := w })
  | missing :
      Begins w [⟨.isCancelled, false⟩, ⟨.size w.config.queuePath, Except.error .notFound⟩]
        (finish { worker := w })
  | unseen {e : OsError} (isOther : e ≠ .notFound) :
      Begins w [⟨.isCancelled, false⟩, ⟨.size w.config.queuePath, Except.error e⟩]
        (fail { worker := w } (.queue "stat" w.config.queuePath e))
  | unreset {size : Nat} (isShort : size < w.offset) (e : CursorError) :
      Begins w [⟨.isCancelled, false⟩, ⟨.size w.config.queuePath, Except.ok size⟩,
          ⟨.saveCursor 0, Except.error e⟩] (fail { worker := w } (.checkpoint e))
  | reset {size : Nat} {log : List Exchange} {d : Drain} (isShort : size < w.offset)
      (opens : Opens { worker := { w with offset := 0 } } log d) :
      Begins w (⟨.isCancelled, false⟩ :: ⟨.size w.config.queuePath, Except.ok size⟩ ::
        ⟨.saveCursor 0, Except.ok ()⟩ :: log) d
  | onward {size : Nat} {log : List Exchange} {d : Drain} (isLong : w.offset ≤ size)
      (opens : Opens { worker := w } log d) :
      Begins w (⟨.isCancelled, false⟩ :: ⟨.size w.config.queuePath, Except.ok size⟩ :: log) d

/-! ### There are no other cases -/

theorem saves_of_trace {offset : Nat} (h : Trace (d.checkpoint offset .done) log d') :
    d.Saves offset log d' := by
  obtain ⟨(r : Except CursorError Unit), rest, rfl, hdone⟩ := trace_ask_iff.1 h
  cases r with
  | error e =>
    obtain ⟨rfl, rfl⟩ := trace_done_iff.1 hdone
    exact .unsaved e
  | ok u =>
    obtain ⟨rfl, rfl⟩ := trace_done_iff.1 hdone
    exact .saved

theorem takes_of_trace {line : Bytes} {next : Nat} (h : Trace (d.takeLine line next) log d') :
    d.Takes line next log d' := by
  unfold takeLine at h
  split at h
  · exact .blank ‹_› (saves_of_trace h)
  · rename_i hblank
    have hblank : (Bytes.trimAscii line).isEmpty = false := by simpa using hblank
    split at h
    · obtain ⟨rfl, rfl⟩ := trace_done_iff.1 h
      exact .malformed hblank ‹_›
    · rename_i j hj
      split at h
      · exact .duplicate hblank hj ‹_› (saves_of_trace h)
      · rename_i hseen
        have hseen : isDuplicate d.worker j.key = false := by simpa using hseen
        obtain ⟨(r : Except Failure Unit), rest, rfl, hafter⟩ := trace_ask_iff.1 h
        cases r with
        | ok u => exact .processed hblank hj hseen (saves_of_trace hafter)
        | error cause =>
          obtain ⟨(stops : Bool), rest, rfl, hdone⟩ := trace_ask_iff.1 hafter
          obtain ⟨rfl, rfl⟩ := trace_done_iff.1 hdone
          cases stops with
          | true => exact .stopped hblank hj hseen cause
          | false => exact .failed hblank hj hseen cause

theorem turns_of_trace (h : Trace d.turn log d') : d.Turns log d' := by
  obtain ⟨(stops : Bool), rest, rfl, hafter⟩ := trace_ask_iff.1 h
  cases stops with
  | true =>
    obtain ⟨rfl, rfl⟩ := trace_done_iff.1 hafter
    exact .cancelled
  | false =>
    obtain ⟨(r : Except OsError Bytes), rest, rfl, hline⟩ := trace_ask_iff.1 hafter
    cases r with
    | error e =>
      obtain ⟨rfl, rfl⟩ := trace_done_iff.1 hline
      exact .unread e
    | ok line =>
      simp only at hline
      split at hline
      · exact .taken ‹_› (takes_of_trace hline)
      · obtain ⟨rfl, rfl⟩ := trace_done_iff.1 hline
        exact .unfinished ‹_›

theorem opens_of_trace (h : Trace d.openFile log d') : d.Opens log d' := by
  obtain ⟨(r : Except OsError Unit), rest, rfl, hdone⟩ := trace_ask_iff.1 h
  obtain ⟨rfl, rfl⟩ := trace_done_iff.1 hdone
  cases r with
  | ok u => exact .opened
  | error e =>
    simp only
    split
    · subst e
      exact .missing
    · exact .unopened ‹_›

theorem begins_of_trace {w : Worker} (h : Trace (begin w) log d') : Begins w log d' := by
  obtain ⟨(stops : Bool), rest, rfl, hafter⟩ := trace_ask_iff.1 h
  cases stops with
  | true =>
    obtain ⟨rfl, rfl⟩ := trace_done_iff.1 hafter
    exact .cancelled
  | false =>
    obtain ⟨(r : Except OsError Nat), rest, rfl, hsize⟩ := trace_ask_iff.1 hafter
    cases r with
    | error e =>
      obtain ⟨rfl, rfl⟩ := trace_done_iff.1 hsize
      split
      · subst e
        exact .missing
      · exact .unseen ‹_›
    | ok size =>
      simp only at hsize
      split at hsize
      · rename_i hshort
        obtain ⟨(r : Except CursorError Unit), rest, rfl, hsave⟩ := trace_ask_iff.1 hsize
        cases r with
        | error e =>
          obtain ⟨rfl, rfl⟩ := trace_done_iff.1 hsave
          exact .unreset hshort e
        | ok u => exact .reset hshort (opens_of_trace hsave)
      · exact .onward (Nat.le_of_not_lt ‹_›) (opens_of_trace hsize)

/-! ### Every case has its trace -/

theorem Saves.trace {offset : Nat} (h : d.Saves offset log d') :
    Trace (d.checkpoint offset .done) log d' := by
  cases h <;> exact .ask _ (.done _)

theorem Takes.trace {line : Bytes} {next : Nat} (h : d.Takes line next log d') :
    Trace (d.takeLine line next) log d' := by
  unfold takeLine
  cases h with
  | blank isBlank saves =>
    rw [if_pos isBlank]
    exact saves.trace
  | malformed notBlank reads =>
    rw [if_neg (by simp [notBlank]), reads]
    exact .done _
  | duplicate notBlank reads isSeen saves =>
    rw [if_neg (by simp [notBlank]), reads]
    simp only [isSeen, ↓reduceIte]
    exact saves.trace
  | processed notBlank reads notSeen saves =>
    rw [if_neg (by simp [notBlank]), reads]
    simp only [notSeen, Bool.false_eq_true, ↓reduceIte]
    exact .ask _ saves.trace
  | stopped notBlank reads notSeen cause =>
    rw [if_neg (by simp [notBlank]), reads]
    simp only [notSeen, Bool.false_eq_true, ↓reduceIte]
    exact .ask _ (.ask _ (.done _))
  | failed notBlank reads notSeen cause =>
    rw [if_neg (by simp [notBlank]), reads]
    simp only [notSeen, Bool.false_eq_true, ↓reduceIte]
    exact .ask _ (.ask _ (.done _))

theorem Turns.trace (h : d.Turns log d') : Trace d.turn log d' := by
  unfold turn
  cases h with
  | cancelled => exact trace_ask_iff.2 ⟨true, _, rfl, .done _⟩
  | unread e =>
    exact trace_ask_iff.2 ⟨false, _, rfl, trace_ask_iff.2 ⟨Except.error e, _, rfl, .done _⟩⟩
  | @unfinished line isUnfinished =>
    refine trace_ask_iff.2 ⟨false, _, rfl, trace_ask_iff.2 ⟨Except.ok line, _, rfl, ?_⟩⟩
    simp only [isUnfinished, ↓reduceIte]
    exact .done _
  | @taken line log d' isComplete takes =>
    refine trace_ask_iff.2 ⟨false, _, rfl, trace_ask_iff.2 ⟨Except.ok line, _, rfl, ?_⟩⟩
    simp only [isComplete, ↓reduceIte]
    exact takes.trace

theorem Opens.trace (h : d.Opens log d') : Trace d.openFile log d' := by
  cases h with
  | opened => exact .ask _ (.done _)
  | missing => exact .ask _ (.done _)
  | @unopened e isOther =>
    have hdone : (if e = .notFound then d.finish
        else d.fail (.queue "open" d.worker.config.queuePath e)) =
        d.fail (.queue "open" d.worker.config.queuePath e) := if_neg isOther
    rw [← hdone]
    exact .ask _ (.done _)

theorem Begins.trace {w : Worker} (h : Begins w log d) : Trace (begin w) log d := by
  unfold begin
  cases h with
  | cancelled => exact trace_ask_iff.2 ⟨true, _, rfl, .done _⟩
  | missing =>
    exact trace_ask_iff.2 ⟨false, _, rfl, trace_ask_iff.2 ⟨Except.error .notFound, _, rfl, .done _⟩⟩
  | @unseen e isOther =>
    refine trace_ask_iff.2 ⟨false, _, rfl, trace_ask_iff.2 ⟨Except.error e, _, rfl, ?_⟩⟩
    simp only [isOther, ↓reduceIte]
    exact .done _
  | @unreset size isShort e =>
    refine trace_ask_iff.2 ⟨false, _, rfl, trace_ask_iff.2 ⟨Except.ok size, _, rfl, ?_⟩⟩
    simp only [isShort, ↓reduceIte]
    exact .ask _ (.done _)
  | @reset size log d isShort opens =>
    refine trace_ask_iff.2 ⟨false, _, rfl, trace_ask_iff.2 ⟨Except.ok size, _, rfl, ?_⟩⟩
    simp only [isShort, ↓reduceIte]
    exact .ask _ opens.trace
  | @onward size log d isLong opens =>
    refine trace_ask_iff.2 ⟨false, _, rfl, trace_ask_iff.2 ⟨Except.ok size, _, rfl, ?_⟩⟩
    simp only [Nat.not_lt.2 isLong, ↓reduceIte]
    exact opens.trace

/-! ### Turns in a row -/

/-- A cycle that has ended takes no turn. -/
theorem turns_of_outcome {n : Nat} (h : d.outcome ≠ none) : turns n d = .done d := by
  cases n with
  | zero => rfl
  | succ n =>
    obtain ⟨outcome, houtcome⟩ := Option.ne_none_iff_exists'.1 h
    rw [turns, houtcome]

/-- A cycle that has not ended takes a turn and goes on. -/
theorem turns_succ {n : Nat} (h : d.outcome = none) : turns (n + 1) d = d.turn.bind (turns n) := by
  rw [turns, h]

theorem trace_turns_of_outcome {n : Nat} (h : d.outcome ≠ none) : Trace (turns n d) [] d := by
  rw [turns_of_outcome h]
  exact .done d

theorem Turns.trace_turns {n : Nat} {d₁ d₂ : Drain} {log' : List Exchange} (h : d.outcome = none)
    (first : d.Turns log d₁) (rest : Trace (turns n d₁) log' d₂) :
    Trace (turns (n + 1) d) (log ++ log') d₂ := by
  rw [turns_succ h]
  exact trace_bind_iff.2 ⟨log, d₁, log', rfl, first.trace, rest⟩

end Drain
end AgentRelay
