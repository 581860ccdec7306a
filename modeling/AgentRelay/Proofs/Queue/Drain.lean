import AgentRelay.Proofs.Job.Line
import AgentRelay.Proofs.Queue.Lines
import AgentRelay.Proofs.Queue.Stage
import AgentRelay.Proofs.Storage.Disk

/-!
# A cycle over a file of jobs

A worker that nothing disturbs takes the lines of a file of jobs one by one to the end. It hands over
the first job of every key that it has not seen.

* `Worker.answersOn` are the answers on a disk when every job succeeds and every offset is saved.
* `Drain.FindsLine` is a turn that finds a line, `Drain.Turns.of_findsLine` what becomes of the line.
* `Drain.turn_line` is such a turn, `Drain.turns_lines` the turns of a cycle, `Worker.drain_lines` a
  cycle from the start of the file.
-/

namespace AgentRelay

open Json Script

/-! ### The first job of every key -/

/-- The first job of every idempotency key. -/
def Job.firstOfEachKey : List Job → List Job
  | [] => []
  | j :: jobs => j :: (firstOfEachKey jobs).filter fun k => k.idempotencyKey != j.idempotencyKey

/-- The jobs whose keys are not among those seen. -/
def Job.unseen (seen : List String) (jobs : List Job) : List Job :=
  jobs.filter fun j => !seen.contains j.idempotencyKey

theorem Job.unseen_nil (jobs : List Job) : unseen [] jobs = jobs := by simp [unseen]

/-- Of a job and others behind it, the job comes first unless its key has been seen; from then on its
key has been seen. -/
theorem Job.unseen_firstOfEachKey_cons (seen : List String) (j : Job) (jobs : List Job) :
    unseen seen (firstOfEachKey (j :: jobs)) =
      if seen.contains j.idempotencyKey then unseen seen (firstOfEachKey jobs)
      else j :: unseen (j.idempotencyKey :: seen) (firstOfEachKey jobs) := by
  rw [firstOfEachKey, unseen, List.filter_cons, List.filter_filter]
  by_cases hj : seen.contains j.idempotencyKey = true
  · rw [if_neg (by simpa using hj), if_pos hj]
    refine List.filter_congr fun k _ => ?_
    by_cases hk : k.idempotencyKey = j.idempotencyKey
    · rw [hk, hj]
      rfl
    · simp [hk]
  · rw [if_pos (by simpa using hj), if_neg hj]
    refine congrArg (j :: ·) (List.filter_congr fun k _ => ?_)
    rw [List.contains_cons, Bool.not_or, Bool.and_comm]
    rfl

/-! ### Quiet surroundings -/

namespace Worker

/-- Nothing disturbs the worker: it is not stopped, every job succeeds and every offset is saved. -/
def quiet : Surroundings (StateM Disk) where
  cursor := ⟨pure (.ok 0), fun _ => pure (.ok ())⟩
  isCancelled := pure false
  process _ := pure (.ok ())
  pause := pure true

/-- The answers of quiet surroundings on a disk. -/
def answersOn (d : Disk) (q : WorkerQuestion) : WorkerAnswer q := ((onDisk quiet q).run d).1

/-- Quiet surroundings leave the disk alone, so a worker in them is answered as at the start. -/
theorem run_quiet {α : Type} (s : WorkerScript α) (d : Disk) :
    (s.run (onDisk quiet)).run d = (s.eval (answersOn d), d) := by
  induction s with
  | done a => rfl
  | ask q next ih =>
    have hanswer : (onDisk quiet q).run d = (answersOn d q, d) := by cases q <;> rfl
    have hrun : ((ask q next).run (onDisk quiet)).run d =
        ((next ((onDisk quiet q).run d).1).run (onDisk quiet)).run ((onDisk quiet q).run d).2 := rfl
    rw [hrun, hanswer, ih]
    rfl

theorem answersOn_line {d : Disk} {path : String} {offset : Nat} {content : Bytes}
    (h : d.read path = .ok content) :
    answersOn d (.line path offset) = Except.ok (firstLine (content.drop offset)) := by
  have hanswer : answersOn d (.line path offset) =
      (d.read path).map fun content => firstLine (content.drop offset) := rfl
  rw [hanswer, h]
  rfl

end Worker

variable {disk : Disk} {content rest : Bytes} {j : Job}

/-! ### Turns -/

namespace Drain

variable {d d' : Drain} {log : List Exchange}

/-- The worker behind the line of a job. -/
def passed (w : Worker) (j : Job) : Worker :=
  { (if isDuplicate w j.key then w else remember w j.key) with offset := w.offset + j.line.length }

/-- Nothing but the line decides what becomes of a turn: the worker is not stopped, it reads the line,
and its offset is saved. -/
structure FindsLine (d : Drain) (line : Bytes) (log : List Exchange) : Prop where
  goesOn : ⟨.isCancelled, true⟩ ∉ log
  reads : ∀ r, ⟨.line d.worker.config.queuePath d.worker.offset, r⟩ ∈ log → r = Except.ok line
  saves : ∀ offset e, ⟨.saveCursor offset, Except.error e⟩ ∉ log

theorem Saves.eq_of_not_mem {offset : Nat} (h : d.Saves offset log d')
    (hlog : ∀ offset e, ⟨.saveCursor offset, Except.error e⟩ ∉ log) :
    log.filterMap Exchange.job? = [] ∧ d' = { d with worker := { d.worker with offset } } := by
  cases h with
  | saved => exact ⟨rfl, rfl⟩
  | unsaved e => exact absurd (List.mem_singleton_self _) (hlog offset e)

/-- A turn that finds the line of a job hands the job over, unless its key has been seen. It passes the
line, unless the job fails. -/
theorem Turns.of_findsLine (h : d.Turns log d') (hline : d.FindsLine j.line log) (hj : j.IsKept) :
    log.filterMap Exchange.job? = (if isDuplicate d.worker j.key then [] else [j]) ∧
      (d'.worker = passed d.worker j ∧ d'.outcome = d.outcome ∧
          (isDuplicate d.worker j.key = false → ⟨.process j, Except.ok ()⟩ ∈ log) ∨
        ∃ cause, isDuplicate d.worker j.key = false ∧ ⟨.process j, Except.error cause⟩ ∈ log ∧
          d' = d.fail (.processor j.id cause)) := by
  obtain ⟨hgoesOn, hreads, hsaves⟩ := hline
  cases h with
  | cancelled => simp at hgoesOn
  | unread e => cases hreads (Except.error e) (by simp)
  | @unfinished line isUnfinished =>
    obtain rfl := Except.ok.inj (hreads (Except.ok line) (by simp))
    exact absurd (Job.getLast?_line j) isUnfinished
  | @taken line log d' isComplete takes =>
    obtain rfl := Except.ok.inj (hreads (Except.ok line) (by simp))
    have hsaves : ∀ offset e, ⟨.saveCursor offset, Except.error e⟩ ∉ log :=
      fun offset e hmem => hsaves offset e (by simp [hmem])
    cases takes with
    | blank isBlank => simp at isBlank
    | malformed _ reads => simp [hj.ofLine_line] at reads
    | duplicate _ reads isSeen saves =>
      obtain rfl : j = _ := Except.ok.inj (hj.ofLine_line.symm.trans reads)
      obtain ⟨hjobs, rfl⟩ := saves.eq_of_not_mem hsaves
      rw [if_pos isSeen, passed, if_pos isSeen]
      exact ⟨hjobs, .inl ⟨rfl, rfl, by simp [isSeen]⟩⟩
    | processed _ reads notSeen saves =>
      obtain rfl : j = _ := Except.ok.inj (hj.ofLine_line.symm.trans reads)
      obtain ⟨hjobs, rfl⟩ := saves.eq_of_not_mem fun offset e hmem => hsaves offset e (by simp [hmem])
      rw [if_neg (by simp [notSeen]), passed, if_neg (by simp [notSeen])]
      exact ⟨congrArg (j :: ·) hjobs, .inl ⟨rfl, rfl, fun _ => by simp⟩⟩
    | stopped => simp at hgoesOn
    | failed _ reads notSeen cause =>
      obtain rfl : j = _ := Except.ok.inj (hj.ofLine_line.symm.trans reads)
      rw [if_neg (by simp [notSeen])]
      exact ⟨rfl, .inr ⟨cause, notSeen, by simp, rfl⟩⟩

/-- There is such a turn in which the job succeeds, when its key has not been seen. -/
theorem exists_findsLine (d : Drain) (hj : j.IsKept) (hnew : isDuplicate d.worker j.key = false) :
    ∃ log d', d.Turns log d' ∧ d.FindsLine j.line log ∧
      ∀ r, ⟨.process j, r⟩ ∈ log → r = Except.ok () := by
  refine ⟨_, _, .taken (Job.getLast?_line j)
    (.processed (Job.isEmpty_trimAscii_line j) hj.ofLine_line hnew .saved), ⟨?_, ?_, ?_⟩, ?_⟩
  · intro h
    simp only [List.mem_cons, List.not_mem_nil, or_false] at h
    rcases h with h | h | h | h <;> cases h
  · intro r h
    simp only [List.mem_cons, List.not_mem_nil, or_false] at h
    rcases h with h | h | h | h <;> cases h
    rfl
  · intro offset e h
    simp only [List.mem_cons, List.not_mem_nil, or_false] at h
    rcases h with h | h | h | h <;> cases h
  · intro r h
    simp only [List.mem_cons, List.not_mem_nil, or_false] at h
    rcases h with h | h | h | h <;> cases h
    rfl

/-- A turn in front of the line of a job passes it when nothing disturbs the worker. -/
theorem turn_line (h : d.Turns log d') (hlog : ∀ x ∈ log, x.2 = Worker.answersOn disk x.1)
    (hread : disk.read d.worker.config.queuePath = .ok content)
    (hrest : content.drop d.worker.offset = j.line ++ rest) (hj : j.IsKept)
    (hone : IsOneLine j.json) :
    d'.worker = passed d.worker j ∧ d'.outcome = d.outcome ∧
      log.filterMap Exchange.job? = if isDuplicate d.worker j.key then [] else [j] := by
  have hline : d.FindsLine j.line log := by
    refine ⟨fun hmem => ?_, fun r hmem => ?_, fun offset e hmem => ?_⟩
    · cases hlog _ hmem
    · refine (hlog _ hmem).trans ?_
      rw [Worker.answersOn_line hread, hrest, Job.firstLine_line hone]
    · cases hlog _ hmem
  obtain ⟨hjobs, ⟨hworker, houtcome, -⟩ | ⟨cause, -, hfailed, -⟩⟩ := h.of_findsLine hline hj
  · exact ⟨hworker, houtcome, hjobs⟩
  · cases hlog _ hfailed

/-- A turn at the end of the file ends the cycle. -/
theorem turn_end (h : d.Turns log d') (hlog : ∀ x ∈ log, x.2 = Worker.answersOn disk x.1)
    (hread : disk.read d.worker.config.queuePath = .ok content)
    (hrest : content.drop d.worker.offset = []) :
    d' = d.finish ∧ log.filterMap Exchange.job? = [] := by
  have hline : ∀ r, ⟨.line d.worker.config.queuePath d.worker.offset, r⟩ ∈ log → r = Except.ok [] := by
    intro r hmem
    refine (hlog _ hmem).trans ?_
    rw [Worker.answersOn_line hread, hrest]
    rfl
  cases h with
  | cancelled => exact ⟨rfl, rfl⟩
  | unread e => cases hline (Except.error e) (by simp)
  | unfinished => exact ⟨rfl, rfl⟩
  | @taken line log d' isComplete takes =>
    obtain rfl := Except.ok.inj (hline (Except.ok line) (by simp))
    cases isComplete

theorem config_passed (w : Worker) (j : Job) : (passed w j).config = w.config := by
  unfold passed remember
  split_ifs <;> rfl

theorem seen_passed (w : Worker) {j : Job} (h : j.key ≠ "") :
    (passed w j).seen = if w.seen.contains j.key then w.seen else j.key :: w.seen := by
  have hempty : j.key.isEmpty = false := by simpa using h
  unfold passed remember isDuplicate
  simp only [hempty]
  split_ifs <;> simp_all

theorem isDuplicate_eq (w : Worker) {key : String} (h : key ≠ "") :
    isDuplicate w key = w.seen.contains key := by
  have hempty : key.isEmpty = false := by simpa using h
  simp [isDuplicate, hempty]

/-- The turns of a cycle over the lines of jobs hand over the first job of every key that has not been
seen, and end behind the last line. -/
theorem turns_lines {jobs : List Job} {n : Nat} {d d' : Drain} {log : List Exchange}
    (h : Trace (turns n d) log d') (hn : jobs.length < n) (hd : d.outcome = none)
    (hlog : ∀ x ∈ log, x.2 = Worker.answersOn disk x.1)
    (hread : disk.read d.worker.config.queuePath = .ok content)
    (hrest : content.drop d.worker.offset = jobs.flatMap Job.line)
    (hjobs : ∀ j ∈ jobs, j.IsKept ∧ IsOneLine j.json ∧ j.key = j.idempotencyKey ∧ j.key ≠ "") :
    d'.outcome = some (.ok ()) ∧
      d'.worker.offset = d.worker.offset + (jobs.flatMap Job.line).length ∧
      log.filterMap Exchange.job? = Job.unseen d.worker.seen (Job.firstOfEachKey jobs) := by
  induction jobs generalizing n d log with
  | nil =>
    obtain ⟨n, rfl⟩ : ∃ m, n = m + 1 := ⟨n - 1, by simp at hn; omega⟩
    rw [turns_succ hd] at h
    obtain ⟨log₁, d₁, log₂, rfl, hturn, hturns⟩ := trace_bind_iff.1 h
    obtain ⟨hlog₁, hlog₂⟩ := List.forall_mem_append.1 hlog
    obtain ⟨rfl, hnone⟩ := turn_end (turns_of_trace hturn) hlog₁ hread hrest
    -- no turn follows the end of the cycle
    rw [turns_of_outcome (by simp [finish])] at hturns
    obtain ⟨rfl, rfl⟩ := trace_done_iff.1 hturns
    refine ⟨rfl, rfl, ?_⟩
    rw [List.append_nil, hnone]
    rfl
  | cons j jobs ih =>
    obtain ⟨n, rfl⟩ : ∃ m, n = m + 1 := ⟨n - 1, by simp at hn; omega⟩
    rw [turns_succ hd] at h
    obtain ⟨log₁, d₁, log₂, rfl, hturn, hturns⟩ := trace_bind_iff.1 h
    obtain ⟨hlog₁, hlog₂⟩ := List.forall_mem_append.1 hlog
    obtain ⟨⟨hkept, hone, hsame, hkey⟩, hjobs⟩ := List.forall_mem_cons.1 hjobs
    obtain ⟨hworker, houtcome, hjob⟩ := turn_line (turns_of_trace hturn) hlog₁ hread hrest hkept hone
    have hoffset : d₁.worker.offset = d.worker.offset + j.line.length := by rw [hworker, passed]
    -- the worker stands in front of the other lines
    have hrest₁ : content.drop d₁.worker.offset = jobs.flatMap Job.line := by
      rw [hoffset, ← List.drop_drop, hrest, List.flatMap_cons, List.drop_left]
    obtain ⟨hend, hlast, hothers⟩ := ih hturns (by simpa using hn) (houtcome.trans hd) hlog₂
      (by rwa [hworker, config_passed]) hrest₁ hjobs
    refine ⟨hend, ?_, ?_⟩
    · rw [hlast, hoffset, List.flatMap_cons, List.length_append, Nat.add_assoc]
    · rw [List.filterMap_append, hjob, hothers, hworker, seen_passed _ hkey, isDuplicate_eq _ hkey,
        Job.unseen_firstOfEachKey_cons, hsame]
      split <;> rfl

/-! ### A whole cycle -/

/-- A cycle that begins in front of the end of the file opens it and goes on. -/
theorem begin_quiet {w : Worker} {d : Drain} (h : Begins w log d)
    (hlog : ∀ x ∈ log, x.2 = Worker.answersOn disk x.1)
    (hread : disk.read w.config.queuePath = .ok content) (hoffset : w.offset ≤ content.length) :
    d = { worker := w } ∧ log.filterMap Exchange.job? = [] := by
  have hgoesOn : ⟨.isCancelled, true⟩ ∉ log := fun hmem => by cases hlog _ hmem
  have hsize : ∀ r, ⟨.size w.config.queuePath, r⟩ ∈ log → r = Except.ok content.length :=
    fun r hmem => (hlog _ hmem).trans (Disk.size_of_read hread)
  have hopen : ∀ r, ⟨.openQueue w.config.queuePath, r⟩ ∈ log → r = Except.ok () := by
    intro r hmem
    obtain ⟨place, hfind⟩ := Disk.find_of_read hread
    exact (hlog _ hmem).trans (congrArg (Except.map fun _ => ()) hfind)
  obtain ⟨rfl, hlooks⟩ := h.looks hgoesOn hsize hopen hoffset
  exact ⟨rfl, List.filterMap_eq_nil_iff.2 fun x hx => (hlooks x hx).job?⟩

/-- A cycle ends at once when the file is missing. -/
theorem begin_missing {w : Worker} {d : Drain} (h : Begins w log d)
    (hlog : ∀ x ∈ log, x.2 = Worker.answersOn disk x.1)
    (hread : disk.read w.config.queuePath = .error .notFound) :
    d = finish { worker := w } ∧ log.filterMap Exchange.job? = [] := by
  have hsize : ∀ r, ⟨.size w.config.queuePath, r⟩ ∈ log → r = Except.error .notFound :=
    fun r hmem => (hlog _ hmem).trans (Disk.size_of_read_notFound hread)
  cases h with
  | cancelled => exact ⟨rfl, rfl⟩
  | missing => exact ⟨rfl, rfl⟩
  | @unseen e isOther => exact absurd (Except.error.inj (hsize (Except.error e) (by simp))) isOther
  | @unreset size => cases hsize (Except.ok size) (by simp)
  | @reset size => cases hsize (Except.ok size) (by simp)
  | @onward size => cases hsize (Except.ok size) (by simp)

end Drain

namespace Worker

/-- A cycle over a file that holds the lines of jobs behind the offset. -/
theorem drain_lines {w : Worker} {jobs : List Job} {n : Nat} {d : Drain} {log : List Exchange}
    (h : Trace (w.drain n) log d) (hn : jobs.length < n)
    (hlog : ∀ x ∈ log, x.2 = answersOn disk x.1)
    (hread : disk.read w.config.queuePath = .ok content) (hoffset : w.offset ≤ content.length)
    (hrest : content.drop w.offset = jobs.flatMap Job.line)
    (hjobs : ∀ j ∈ jobs, j.IsKept ∧ IsOneLine j.json ∧ j.key = j.idempotencyKey ∧ j.key ≠ "") :
    d.outcome = some (.ok ()) ∧ d.worker.offset = content.length ∧
      log.filterMap Exchange.job? = Job.unseen w.seen (Job.firstOfEachKey jobs) := by
  obtain ⟨log₁, d₁, log₂, rfl, hbegin, hturns⟩ := trace_bind_iff.1 h
  obtain ⟨hlog₁, hlog₂⟩ := List.forall_mem_append.1 hlog
  obtain ⟨rfl, hnone⟩ := Drain.begin_quiet (Drain.begins_of_trace hbegin) hlog₁ hread hoffset
  obtain ⟨hend, hlast, hhanded⟩ := Drain.turns_lines hturns hn rfl hlog₂ hread hrest hjobs
  refine ⟨hend, ?_, ?_⟩
  · rw [hlast, ← hrest, List.length_drop]
    exact Nat.add_sub_cancel' hoffset
  · rw [List.filterMap_append, hnone, hhanded, List.nil_append]

/-- A cycle without a file. -/
theorem drain_missing {w : Worker} {n : Nat} {d : Drain} {log : List Exchange}
    (h : Trace (w.drain n) log d) (hlog : ∀ x ∈ log, x.2 = answersOn disk x.1)
    (hread : disk.read w.config.queuePath = .error .notFound) :
    d = Drain.finish { worker := w } ∧ log.filterMap Exchange.job? = [] := by
  obtain ⟨log₁, d₁, log₂, rfl, hbegin, hturns⟩ := trace_bind_iff.1 h
  obtain ⟨hlog₁, -⟩ := List.forall_mem_append.1 hlog
  obtain ⟨rfl, hnone⟩ := Drain.begin_missing (Drain.begins_of_trace hbegin) hlog₁ hread
  rw [Drain.turns_of_outcome (by simp [Drain.finish])] at hturns
  obtain ⟨rfl, rfl⟩ := trace_done_iff.1 hturns
  exact ⟨rfl, by rw [List.append_nil, hnone]⟩

end Worker
end AgentRelay
