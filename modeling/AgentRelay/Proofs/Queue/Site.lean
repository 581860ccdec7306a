import AgentRelay.Proofs.Queue.Lines
import AgentRelay.Proofs.Queue.Stage

/-!
# A queue file and the workers on it

A queue file grows while workers read it, one after the other. A worker goes on from the offset that the
one before it has saved. It may end after any cycle and be gone after any exchange; then all that it
knew is lost but what it has saved.

* `Site` is the file with the saved offset and the worker, `Site.Step` is what may happen next, and
  `Site.Run` any number of such steps.
* `Site.View` shows the stage of the worker in place of its script, `Step.exists_view` what a step does
  to it.
* `Site.run_of_trace` makes a run of what a cycle asks and is answered.
-/

namespace AgentRelay

open Script

/-- What the worker is doing. -/
inductive Running
  /-- There is no worker. -/
  | off
  /-- The worker is between two cycles. -/
  | idle (w : Worker)
  /-- The worker is in a cycle; this is left of it. -/
  | draining (rest : WorkerScript Drain)

/-- A queue file, the offset that is saved for it, and the worker on it. -/
structure Site where
  content : Bytes := []
  cursor : Nat := 0
  running : Running := .off

namespace Exchange

/-- The job that succeeds. -/
def success? : Exchange → Option Job
  | ⟨.process j, (r : Except Failure Unit)⟩ =>
    match r with
    | .ok () => some j
    | .error _ => none
  | _ => none

/-- The offset that is saved. -/
def saved? : Exchange → Option Nat
  | ⟨.saveCursor offset, (r : Except CursorError Unit)⟩ =>
    match r with
    | .ok () => some offset
    | .error _ => none
  | _ => none

/-- An offset is not saved. -/
def isUnsaved : Exchange → Bool
  | ⟨.saveCursor _, (r : Except CursorError Unit)⟩ =>
    match r with
    | .ok () => false
    | .error _ => true
  | _ => false

/-- The offset that is saved after an exchange. A failure to save leaves the old one. -/
def cursorAfter (cursor : Nat) (x : Exchange) : Nat := x.saved?.getD cursor

/-- The answer is what the file and the saved offset say. Every question about files is about the queue
file; any question may be answered by a failure, and jobs end as they like. -/
def Fits (content : Bytes) (cursor : Nat) : Exchange → Prop
  | ⟨.loadCursor, r⟩ => ∀ offset, r = Except.ok offset → offset = cursor
  | ⟨.size _, r⟩ => ∀ size, r = Except.ok size → size = content.length
  | ⟨.line _ offset, r⟩ => ∀ line, r = Except.ok line → line = firstLine (content.drop offset)
  | _ => True

theorem IsLook.success? {x : Exchange} (h : x.IsLook) : x.success? = none := by
  obtain ⟨q, r⟩ := x
  cases q <;> first | exact h.elim | rfl

theorem IsLook.saved? {x : Exchange} (h : x.IsLook) : x.saved? = none := by
  obtain ⟨q, r⟩ := x
  cases q <;> first | exact h.elim | rfl

theorem IsLook.isUnsaved {x : Exchange} (h : x.IsLook) : x.isUnsaved = false := by
  obtain ⟨q, r⟩ := x
  cases q <;> first | exact h.elim | rfl

end Exchange

/-- Only the offset behind the line in hand is saved. -/
theorem Stage.Moves.cursorAfter_cases {st st' : Stage} {x : Exchange} (h : st.Moves x st') (cursor : Nat) :
    x.cursorAfter cursor = cursor ∨ ∃ w next, st = .passing w next ∧ x.cursorAfter cursor = next := by
  cases h with
  | looks w isLook => exact .inl (by rw [Exchange.cursorAfter, isLook.saved?]; rfl)
  | saved w next => exact .inr ⟨w, next, rfl, rfl⟩
  | _ => exact .inl rfl

namespace Site

/-- What is seen of a site. -/
inductive Event
  /-- Bytes are appended to the file. -/
  | grew (more : Bytes)
  /-- A worker starts while this offset is saved. -/
  | started (offset : Nat)
  /-- A cycle begins. -/
  | began
  | asked (x : Exchange)
  /-- The cycle is over. -/
  | rested
  /-- The worker ends between two cycles. -/
  | ended
  /-- The worker is gone. -/
  | crashed

/-- The exchange that is seen. -/
def Event.exchange? : Event → Option Exchange
  | asked x => some x
  | _ => none

/-- The job that succeeds. -/
def Event.success? (e : Event) : Option Job := e.exchange?.bind Exchange.success?

/-- What may happen. -/
inductive Step (s : Site) : Event → Site → Prop
  | grows (more : Bytes) : Step s (.grew more) { s with content := s.content ++ more }
  | starts {config : WorkerConfig} {log : List Exchange} {r : Except WorkerError Worker}
      (isOff : s.running = .off) (trace : Trace (Worker.start config) log r)
      (fits : ∀ x ∈ log, x.Fits s.content s.cursor) :
      Step s (.started s.cursor)
        { s with running := match r with
            | .ok w => .idle w
            | .error _ => .off }
  | begins {w : Worker} (isIdle : s.running = .idle w) (n : Nat) :
      Step s .began { s with running := .draining (w.drain n) }
  | asks {q : WorkerQuestion} {next : WorkerAnswer q → WorkerScript Drain}
      (isAsking : s.running = .draining (.ask q next)) {r : WorkerAnswer q}
      (fits : Exchange.Fits s.content s.cursor ⟨q, r⟩) :
      Step s (.asked ⟨q, r⟩)
        { s with cursor := Exchange.cursorAfter s.cursor ⟨q, r⟩, running := .draining (next r) }
  | rests {d : Drain} (isDone : s.running = .draining (.done d)) :
      Step s .rested { s with running := .idle d.worker }
  | ends {w : Worker} (isIdle : s.running = .idle w) : Step s .ended { s with running := .off }
  | crashes (isOn : s.running ≠ .off) : Step s .crashed { s with running := .off }

/-- Steps in a row; the last event is the first in the list. -/
inductive Run (s : Site) : List Event → Site → Prop
  | start : Run s [] s
  | step {log : List Event} {s' s'' : Site} {e : Event} (past : Run s log s') (next : Step s' e s'') :
      Run s (e :: log) s''

/-! ### Stages in place of scripts -/

/-- A site as far as lines are concerned. -/
structure View where
  content : Bytes
  cursor : Nat
  /-- The stage of the worker, if there is one. -/
  stage : Option Stage

/-- The worker is in the stage. -/
def IsAt : Running → Option Stage → Prop
  | .off, st => st = none
  | .idle w, st => st = some (.free w)
  | .draining rest, st => ∃ x, st = some x ∧ Drain.Goes rest x

/-- The site has the view. -/
structure Has (s : Site) (v : View) : Prop where
  content : v.content = s.content
  cursor : v.cursor = s.cursor
  stage : IsAt s.running v.stage

/-- What a step does to a view. -/
inductive View.Step (v : View) : Event → View → Prop
  | grew (more : Bytes) : Step v (.grew more) { v with content := v.content ++ more }
  | started {config : WorkerConfig} (isOff : v.stage = none) :
      Step v (.started v.cursor) { v with stage := some (.free { config, offset := v.cursor }) }
  | unstarted (isOff : v.stage = none) : Step v (.started v.cursor) v
  | began : Step v .began v
  | asked {x : Exchange} {st st' : Stage} (isAt : v.stage = some st)
      (fits : x.Fits v.content v.cursor) (moves : st.Moves x st') :
      Step v (.asked x) { v with cursor := x.cursorAfter v.cursor, stage := some st' }
  | rested : Step v .rested v
  | ended {w : Worker} (isFree : v.stage = some (.free w)) : Step v .ended { v with stage := none }
  | crashed : Step v .crashed { v with stage := none }

theorem start_cases {config : WorkerConfig} {log : List Exchange} {r : Except WorkerError Worker}
    {content : Bytes} {cursor : Nat} (h : Trace (Worker.start config) log r)
    (hfits : ∀ x ∈ log, x.Fits content cursor) :
    r = .ok { config, offset := cursor } ∨ ∃ e, r = .error e := by
  unfold Worker.start at h
  split at h
  · exact .inr ⟨_, (trace_done_iff.1 h).2⟩
  · split at h
    · exact .inr ⟨_, (trace_done_iff.1 h).2⟩
    · obtain ⟨(loaded : Except CursorError Nat), rest, rfl, hdone⟩ := trace_ask_iff.1 h
      obtain ⟨rfl, rfl⟩ := trace_done_iff.1 hdone
      cases loaded with
      | error e => exact .inr ⟨_, rfl⟩
      | ok offset =>
        obtain rfl : offset = cursor := hfits _ (List.mem_singleton_self _) offset rfl
        exact .inl rfl

/-- A worker starts at the saved offset. -/
theorem trace_start {config : WorkerConfig} (hpath : config.queuePath.isEmpty = false)
    (hpoll : config.pollInterval.isZero = false) (offset : Nat) :
    Trace (Worker.start config) [⟨.loadCursor, Except.ok offset⟩] (.ok { config, offset }) := by
  unfold Worker.start
  rw [if_neg (by simp [hpath]), if_neg (by simp [hpoll])]
  exact trace_ask_iff.2 ⟨Except.ok offset, [], rfl, .done _⟩

variable {s s' : Site} {e : Event} {v : View}

theorem Step.exists_view (next : Step s e s') (h : s.Has v) : ∃ v', v.Step e v' ∧ s'.Has v' := by
  obtain ⟨content, cursor, stage⟩ := v
  obtain ⟨rfl, rfl, hstage⟩ := h
  cases next with
  | grows more => exact ⟨_, .grew more, rfl, rfl, hstage⟩
  | starts isOff trace fits =>
    rw [isOff] at hstage
    obtain rfl : stage = none := hstage
    obtain rfl | ⟨e, rfl⟩ := start_cases trace fits
    · exact ⟨_, .started rfl, rfl, rfl, rfl⟩
    · exact ⟨_, .unstarted rfl, rfl, rfl, rfl⟩
  | @begins w isIdle n =>
    rw [isIdle] at hstage
    obtain rfl : stage = some (.free w) := hstage
    exact ⟨_, .began, rfl, rfl, _, rfl, Worker.follows_drain n w⟩
  | @asks q next isAsking r fits =>
    rw [isAsking] at hstage
    obtain ⟨st, rfl, hgoes⟩ := hstage
    obtain ⟨st', hmoves, hrest⟩ := hgoes r
    exact ⟨_, .asked rfl fits hmoves, rfl, rfl, st', rfl, hrest⟩
  | rests isDone =>
    rw [isDone] at hstage
    obtain ⟨st, rfl, rfl⟩ := hstage
    exact ⟨_, .rested, rfl, rfl, rfl⟩
  | @ends w isIdle =>
    rw [isIdle] at hstage
    obtain rfl : stage = some (.free w) := hstage
    exact ⟨_, .ended rfl, rfl, rfl, rfl⟩
  | crashes isOn => exact ⟨_, .crashed, rfl, rfl, rfl⟩

/-- What holds of a view at the start and is kept by every step holds after a run. -/
theorem Run.exists_view {P : View → List Event → Prop} {log : List Event} (run : Run s log s')
    (hv : s.Has v) (hP : P v [])
    (hstep : ∀ {v v' e log}, v.Step e v' → P v log → P v' (e :: log)) :
    ∃ v', s'.Has v' ∧ P v' log := by
  induction run with
  | start => exact ⟨v, hv, hP⟩
  | step _ next ih =>
    obtain ⟨v', hv', hP'⟩ := ih
    obtain ⟨v'', hmove, hv''⟩ := next.exists_view hv'
    exact ⟨v'', hv'', hstep hmove hP'⟩

/-! ### Runs of a cycle -/

theorem Run.trans {s s' s'' : Site} {log log' : List Event} (run : Run s log s')
    (run' : Run s' log' s'') : Run s (log' ++ log) s'' := by
  induction run' with
  | start => exact run
  | step _ next ih => exact ih.step next

/-- What a script asks and is answered is a run, up to any exchange. -/
theorem run_of_trace {rest : WorkerScript Drain} {log log' : List Exchange} {d : Drain}
    (h : Trace rest (log ++ log') d) (hrest : s.running = .draining rest)
    (hfits : ∀ x ∈ log, ∀ cursor, x.Fits s.content cursor) :
    ∃ rest', Trace rest' log' d ∧ Run s (log.reverse.map Event.asked)
      { s with cursor := log.foldl Exchange.cursorAfter s.cursor, running := .draining rest' } := by
  induction log generalizing s rest with
  | nil =>
    refine ⟨rest, h, ?_⟩
    rw [← hrest]
    exact .start
  | cons x log ih =>
    cases h with
    | @ask q next _ _ r hnext =>
      obtain ⟨hx, hfits⟩ := List.forall_mem_cons.1 hfits
      obtain ⟨rest', htrace, hrun⟩ := ih (s := { s with
        cursor := Exchange.cursorAfter s.cursor ⟨q, r⟩, running := .draining (next r) }) hnext rfl hfits
      refine ⟨rest', htrace, ?_⟩
      have hfirst := (Run.start (s := s)).step (.asks hrest (hx s.cursor))
      have hboth := hfirst.trans hrun
      simpa using hboth

/-- A whole cycle is a run. -/
theorem run_cycle {w : Worker} {n : Nat} {log : List Exchange} {d : Drain} (isIdle : s.running = .idle w)
    (h : Trace (w.drain n) log d) (hfits : ∀ x ∈ log, ∀ cursor, x.Fits s.content cursor) :
    Run s (.rested :: (log.reverse.map Event.asked ++ [.began]))
      { s with cursor := log.foldl Exchange.cursorAfter s.cursor, running := .idle d.worker } := by
  have hbegun := (Run.start (s := s)).step (.begins isIdle n)
  obtain ⟨rest, hdone, hasked⟩ := run_of_trace (s := { s with running := .draining (w.drain n) })
    ((List.append_nil log).symm ▸ h) rfl hfits
  cases hdone
  exact (hbegun.trans hasked).step (.rests rfl)

/-- The answers fit when a cycle finds a file and reads its first line. -/
theorem fits_of_first {content line : Bytes} {path : String} {log : List Exchange}
    (hline : firstLine content = line) (hlog : ∀ x ∈ log, ∀ cursor, x.Fits content cursor) :
    ∀ x ∈ ⟨.isCancelled, false⟩ :: ⟨.size path, Except.ok content.length⟩ ::
      ⟨.openQueue path, Except.ok ()⟩ :: ⟨.isCancelled, false⟩ :: ⟨.line path 0, Except.ok line⟩ :: log,
      ∀ cursor, x.Fits content cursor := by
  simp only [List.forall_mem_cons]
  refine ⟨fun _ => trivial, fun _ _ h => (Except.ok.inj h).symm, fun _ => trivial, fun _ => trivial,
    fun _ _ h => ?_, hlog⟩
  exact (Except.ok.inj h).symm.trans hline.symm

end Site
end AgentRelay
