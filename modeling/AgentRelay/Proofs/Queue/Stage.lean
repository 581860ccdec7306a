import AgentRelay.Proofs.Queue.Turn

/-!
# How far a worker is with a line

Between two questions a worker has no line in hand, or it has handed over the job of a line, or it is
about to save the offset behind a line. These stages and the moves between them are all that matters
for what becomes of a line, wherever a cycle is broken off.

* `Stage` are the stages, `Stage.Moves` the moves with the exchanges that make them.
* `Drain.follows_turn` says that a turn makes such moves only, `Worker.follows_drain` a cycle.
-/

namespace AgentRelay

open Script

/-- How far a worker is with a line. -/
inductive Stage
  /-- It has no line in hand. -/
  | free (w : Worker)
  /-- It hands over the job of a line that ends at `next`. -/
  | holding (w : Worker) (j : Job) (next : Nat)
  /-- It saves the offset `next` behind a line. -/
  | passing (w : Worker) (next : Nat)

/-- The exchange is neither about a job nor about saving an offset. -/
def Exchange.IsLook : Exchange → Prop
  | ⟨.process _, _⟩ => False
  | ⟨.saveCursor _, _⟩ => False
  | _ => True

theorem Exchange.IsLook.job? {x : Exchange} (h : x.IsLook) : x.job? = none := by
  obtain ⟨q, r⟩ := x
  cases q <;> first | exact h.elim | rfl

/-- A line that holds nothing. -/
def IsBlankLine (line : Bytes) : Prop := (Bytes.trimAscii line).isEmpty = true

/-- A line that the worker passes without having anything processed. -/
def Worker.Skips (w : Worker) (line : Bytes) : Prop :=
  IsBlankLine line ∨ ∃ j, Job.ofLine line = .ok j ∧ Drain.isDuplicate w j.key = true

namespace Stage

/-- The worker of a stage. -/
def worker : Stage → Worker
  | free w => w
  | holding w _ _ => w
  | passing w _ => w

/-- What an exchange does to a stage. -/
inductive Moves : Stage → Exchange → Stage → Prop
  | looks (w : Worker) {x : Exchange} (isLook : x.IsLook) : Moves (free w) x (free w)
  | shrunk (w : Worker) {path : String} {size : Nat} (isShort : size < w.offset) :
      Moves (free w) ⟨.size path, Except.ok size⟩ (passing w 0)
  | skipped (w : Worker) {path : String} {line : Bytes} (isComplete : line.getLast? = some 10)
      (skips : w.Skips line) :
      Moves (free w) ⟨.line path w.offset, Except.ok line⟩ (passing w (w.offset + line.length))
  | found (w : Worker) {path : String} {line : Bytes} {j : Job} (isComplete : line.getLast? = some 10)
      (notBlank : ¬ IsBlankLine line) (reads : Job.ofLine line = .ok j)
      (notSeen : Drain.isDuplicate w j.key = false) :
      Moves (free w) ⟨.line path w.offset, Except.ok line⟩ (holding w j (w.offset + line.length))
  | succeeded (w : Worker) (j : Job) (next : Nat) :
      Moves (holding w j next) ⟨.process j, Except.ok ()⟩ (passing (Drain.remember w j.key) next)
  | failed (w : Worker) (j : Job) (next : Nat) (cause : Failure) :
      Moves (holding w j next) ⟨.process j, Except.error cause⟩ (free w)
  | saved (w : Worker) (next : Nat) :
      Moves (passing w next) ⟨.saveCursor next, Except.ok ()⟩ (free { w with offset := next })
  | unsaved (w : Worker) (next : Nat) (e : CursorError) :
      Moves (passing w next) ⟨.saveCursor next, Except.error e⟩ (free w)

end Stage

namespace Drain

/-- The script makes moves of a worker only, and leaves the worker of its result without a line. -/
abbrev Goes (s : WorkerScript Drain) (st : Stage) : Prop :=
  s.Follows Stage.Moves (fun d st => st = .free d.worker) st

variable (d : Drain)

theorem follows_checkpoint {next : Nat} {f : Drain → WorkerScript Drain}
    (hf : ∀ d', Goes (f d') (.free d'.worker)) :
    Goes (d.checkpoint next f) (.passing d.worker next) := by
  rintro (e | ⟨⟩)
  · exact ⟨_, .unsaved _ _ e, rfl⟩
  · exact ⟨_, .saved _ _, hf _⟩

theorem follows_openFile : Goes d.openFile (.free d.worker) := by
  intro r
  refine ⟨_, .looks _ trivial, ?_⟩
  rcases r with e | ⟨⟩
  · dsimp only
    split <;> rfl
  · rfl

theorem follows_begin (w : Worker) : Goes (begin w) (.free w) := by
  rintro (_ | _)
  · refine ⟨_, .looks w trivial, ?_⟩
    rintro (e | size)
    · refine ⟨_, .looks w trivial, ?_⟩
      dsimp only
      split <;> rfl
    · by_cases hshort : size < w.offset
      · refine ⟨_, .shrunk w hshort, ?_⟩
        simp only [hshort, ↓reduceIte]
        exact follows_checkpoint { worker := w } follows_openFile
      · refine ⟨_, .looks w trivial, ?_⟩
        simp only [hshort, ↓reduceIte]
        exact follows_openFile { worker := w }
  · exact ⟨_, .looks w trivial, rfl⟩

theorem follows_processJob (j : Job) (next : Nat) :
    Goes (d.processJob j next) (.holding d.worker j next) := by
  rintro (cause | ⟨⟩)
  · refine ⟨_, .failed _ _ _ cause, fun stops => ⟨_, .looks _ trivial, ?_⟩⟩
    dsimp only
    split <;> rfl
  · refine ⟨_, .succeeded _ _ _, ?_⟩
    generalize remember d.worker j.key = w
    exact follows_checkpoint
      { d with worker := w, report := { d.report with processed := d.report.processed + 1 } } fun _ => rfl

/-- What becomes of a complete line. -/
theorem follows_takeLine {path : String} {line : Bytes} (h : line.getLast? = some 10) :
    ∃ st, Stage.Moves (.free d.worker) ⟨.line path d.worker.offset, Except.ok line⟩ st ∧
      Goes (d.takeLine line (d.worker.offset + line.length)) st := by
  unfold takeLine
  split
  next hblank => exact ⟨_, .skipped _ h (.inl hblank), follows_checkpoint _ fun _ => rfl⟩
  next hblank =>
    split
    next e _ => exact ⟨_, .looks _ trivial, rfl⟩
    next j hj =>
      split
      next hseen => exact ⟨_, .skipped _ h (.inr ⟨j, hj, hseen⟩), follows_checkpoint _ fun _ => rfl⟩
      next hseen =>
        exact ⟨_, .found _ h hblank hj (by simpa using hseen), follows_processJob d j _⟩

theorem follows_turn : Goes d.turn (.free d.worker) := by
  rintro (_ | _)
  · refine ⟨_, .looks _ trivial, ?_⟩
    rintro (e | line)
    · exact ⟨_, .looks _ trivial, rfl⟩
    · by_cases hcomplete : line.getLast? = some 10
      · simp only [hcomplete, ↓reduceIte]
        exact follows_takeLine d hcomplete
      · simp only [hcomplete, ↓reduceIte]
        exact ⟨_, .looks _ trivial, rfl⟩
  · exact ⟨_, .looks _ trivial, rfl⟩

theorem follows_turns (n : Nat) : Goes (turns n d) (.free d.worker) := by
  induction n generalizing d with
  | zero => exact rfl
  | succ n ih =>
    unfold turns
    split
    · exact rfl
    · refine (follows_turn d).bind ?_
      rintro d' _ rfl
      exact ih d'

end Drain

/-- A cycle that finds a file no shorter than the offset looks at it and goes on. -/
theorem Drain.Begins.looks {w : Worker} {d : Drain} {log : List Exchange} {size : Nat} (h : Begins w log d)
    (hgoesOn : ⟨.isCancelled, true⟩ ∉ log)
    (hsize : ∀ r, ⟨.size w.config.queuePath, r⟩ ∈ log → r = Except.ok size)
    (hopen : ∀ r, ⟨.openQueue w.config.queuePath, r⟩ ∈ log → r = Except.ok ())
    (hoffset : w.offset ≤ size) : d = { worker := w } ∧ ∀ x ∈ log, x.IsLook := by
  cases h with
  | cancelled => simp at hgoesOn
  | missing => cases hsize (Except.error .notFound) (by simp)
  | @unseen e => cases hsize (Except.error e) (by simp)
  | @unreset size isShort =>
    obtain rfl := Except.ok.inj (hsize (Except.ok size) (by simp))
    exact absurd isShort (Nat.not_lt.2 hoffset)
  | @reset size _ _ isShort =>
    obtain rfl := Except.ok.inj (hsize (Except.ok size) (by simp))
    exact absurd isShort (Nat.not_lt.2 hoffset)
  | onward isLong opens =>
    cases opens with
    | opened => exact ⟨rfl, by simp [Exchange.IsLook]⟩
    | missing => cases hopen (Except.error .notFound) (by simp)
    | @unopened e => cases hopen (Except.error e) (by simp)

theorem Worker.follows_drain (n : Nat) (w : Worker) : Drain.Goes (w.drain n) (.free w) := by
  refine (Drain.follows_begin w).bind ?_
  rintro d _ rfl
  exact Drain.follows_turns d n

end AgentRelay
