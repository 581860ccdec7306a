import AgentRelay.Proofs.Deadline.Course

/-!
# The watch over a first thought

A race is started, told of thoughts, cancelled and waited for by anybody at any time, while its deadline
comes and its calls are answered. Whatever the order, it stores one result, everybody who waits for it is
told that result, and what the result says of the fallback and of the violation is what has happened.

* `Watch` is a race with the contexts around it, `Watch.Step` are the moves of all parties, `Watch.Run` any
  number of them. A race that goes on and a call that waits make such moves (`run_advance`, `step_wait`).
* `Watch.Keeps` is what holds at every moment, `Step.keeps` says that every move keeps it so.
* `Watch.race_settles` is the result.
-/

namespace AgentRelay.Deadline

/-- A race with the contexts around it; a context is known by its number. -/
structure Watch where
  race : Race
  /-- The context that the race was started with. -/
  context : Option Nat := none
  /-- The contexts that are cancelled. -/
  cancelled : List Nat := []
  /-- The deadline has passed. -/
  expired : Bool := false

namespace Watch

/-- The race is cancelled. -/
def isCancelled (w : Watch) : Bool := w.context.any w.cancelled.contains

/-- What is seen of a race. -/
inductive Event
  /-- A call starts the race. -/
  | started (context : Nat)
  /-- A call marks that a thought was seen; it answers whether it was the first. -/
  | marked (isFirst : Bool)
  | cancelled (context : Nat)
  /-- The deadline passes. -/
  | expired
  /-- The race itself does something. -/
  | did (deed : Deed)
  /-- A call that waits is told the result. -/
  | told (context : Nat) (result : Except DeadlineError Outcome)
  /-- A call that waits ends because its own context is cancelled. -/
  | gaveUp (context : Nat)

/-- The moves. A call that waits looks at the result and at its own context in turn, so it may give up
though the race has just ended. -/
inductive Step (w : Watch) : List Event → Watch → Prop
  | starts (context : Nat) (isNew : w.race.stage = .notStarted) :
      Step w (.started context :: w.race.start.entry.map .did)
        { w with race := w.race.start, context := some context }
  | startsAgain (context : Nat) (isOld : w.race.stage ≠ .notStarted) :
      Step w [.started context] { w with race := w.race.start }
  | marks : Step w [.marked !w.race.observed] { w with race := w.race.markObserved }
  | cancels (context : Nat) :
      Step w [.cancelled context] { w with cancelled := context :: w.cancelled }
  | expires : Step w [.expired] { w with expired := true }
  | races {deeds : List Deed} {race : Race} (moves : w.race.Moves w.isCancelled w.expired deeds race) :
      Step w (deeds.map .did) { w with race }
  | told (context : Nat) {result : Except DeadlineError Outcome}
      (tells : w.race.wait false = some result) : Step w [.told context result] w
  | gaveUp {context : Nat} (isCancelled : context ∈ w.cancelled) : Step w [.gaveUp context] w

/-- Moves in a row; the events are in the order in which they happened. -/
inductive Run (w : Watch) : List Event → Watch → Prop
  | start : Run w [] w
  | step {log events : List Event} {w' w'' : Watch} (past : Run w log w') (move : Step w' events w'') :
      Run w (log ++ events) w''

variable {r : Race} {w w' : Watch} {log events : List Event}

/-- A call that waits and is answered makes a move. -/
theorem step_wait {context : Nat} {result : Except DeadlineError Outcome}
    (h : w.race.wait (w.cancelled.contains context) = some result) :
    Step w [.told context result] w ∨ result = .ok .cancelled ∧ Step w [.gaveUp context] w := by
  unfold Race.wait at h
  split at h
  next hresult =>
    obtain rfl := Option.some.inj h
    exact .inl (.told context (by rw [Race.wait, hresult]))
  next =>
    split at h
    next hcancelled =>
      obtain rfl := Option.some.inj h
      exact .inr ⟨rfl, .gaveUp (by simpa using hcancelled)⟩
    next => contradiction

/-- A race that goes on makes moves only. -/
theorem run_advance {σ : Type} (w : Watch) (post : Post → StateM σ (Option (Except Failure String)))
    (now : StateM σ Instant) (record : Violation → StateM σ (Except Failure Unit)) (state : σ) :
    ∃ deeds : List Deed, Run w (deeds.map .did)
      { w with race := ((w.race.advance w.isCancelled w.expired post now record).run state).1 } := by
  obtain ⟨deeds, h⟩ := w.race.advances_advance w.isCancelled w.expired post now record state
  refine ⟨deeds, ?_⟩
  generalize ((w.race.advance w.isCancelled w.expired post now record).run state).1 = race at h ⊢
  induction h with
  | refl => exact .start
  | move _ moves ih =>
    rw [List.map_append]
    exact ih.step (.races moves)

/-! ### What is seen -/

/-- The deed that is seen. -/
@[simp] def Event.deed? : Event → Option Deed
  | did deed => some deed
  | _ => none

/-- The answer to a call that marks. -/
@[simp] def Event.mark? : Event → Option Bool
  | marked isFirst => some isFirst
  | _ => none

/-- What the race did. -/
def deeds (log : List Event) : List Deed := log.filterMap Event.deed?

/-- The answers to the calls that marked. -/
def marks (log : List Event) : List Bool := log.filterMap Event.mark?

@[simp] theorem deeds_append (log log' : List Event) : deeds (log ++ log') = deeds log ++ deeds log' :=
  List.filterMap_append

@[simp] theorem marks_append (log log' : List Event) : marks (log ++ log') = marks log ++ marks log' :=
  List.filterMap_append

@[simp] theorem deeds_cons (e : Event) (log : List Event) :
    deeds (e :: log) = e.deed?.toList ++ deeds log := by
  cases e <;> rfl

@[simp] theorem marks_cons (e : Event) (log : List Event) :
    marks (e :: log) = e.mark?.toList ++ marks log := by
  cases e <;> rfl

@[simp] theorem deeds_nil : deeds [] = [] := rfl

@[simp] theorem marks_nil : marks [] = [] := rfl

@[simp] theorem deeds_map_did (ds : List Deed) : deeds (ds.map .did) = ds := by
  induction ds with
  | nil => rfl
  | cons d ds ih => exact congrArg (d :: ·) ih

@[simp] theorem marks_map_did (ds : List Deed) : marks (ds.map .did) = [] := by
  induction ds with
  | nil => rfl
  | cons d ds ih => exact ih

/-! ### What stays -/

theorem start_of_ne (h : r.stage ≠ .notStarted) : r.start = r := by
  unfold Race.start
  split
  · contradiction
  · rfl

theorem start_of_new (h : r.stage = .notStarted) :
    r.start = if r.enforced then { r with stage := .racing } else r.finish (.ok .skipped) := by
  simp only [Race.start, h, Race.finish]

theorem observed_start (r : Race) : r.start.observed = r.observed := by
  unfold Race.start
  split
  · split <;> rfl
  · rfl

theorem result?_eq_some {result : Except DeadlineError Outcome} :
    r.result? = some result ↔ r.stage = .finished result := by
  unfold Race.result?
  cases r.stage <;> simp

/-- A thought that was seen stays seen. -/
theorem Step.observed (move : Step w events w') (h : w.race.observed = true) :
    w'.race.observed = true := by
  cases move with
  | starts | startsAgain => exact (observed_start w.race).trans h
  | marks => rfl
  | races moves => cases moves.shift <;> first | exact h | rfl
  | _ => exact h

/-- A result that is stored stays stored. -/
theorem Step.finished {result : Except DeadlineError Outcome} (move : Step w events w')
    (h : w.race.stage = .finished result) : w'.race.stage = .finished result := by
  cases move with
  | starts _ hnew => simp [h] at hnew
  | startsAgain _ hold => exact (congrArg Race.stage (start_of_ne hold)).trans h
  | races moves => cases moves.shift <;> simp_all
  | _ => exact h

/-! ### What holds at every moment -/

/-- The race is on one of its courses. -/
structure IsOnCourse (r : Race) (w : Watch) (log : List Event) : Prop where
  becomes : r.Becomes w.race
  course : r.Course (deeds log) w.race.stage

/-- At most one call was the first to mark a thought, and none has while no thought was seen. -/
structure IsMarked (w : Watch) (log : List Event) : Prop where
  unmarked : w.race.observed = false → marks log = []
  first : (marks log).count true ≤ 1

/-- The fallback is posted after the deadline has passed, when the race has looked again and has found no
thought, and no call had marked one. -/
def IsLate (log : List Event) : Prop :=
  ∀ p, .did (.posts p) ∈ log → ∃ before after,
    log = before ++ .did (.looksAgain false) :: .did (.posts p) :: after ∧
      .expired ∈ before ∧ marks before = []

/-- Nothing is done before the deadline has passed. -/
structure IsTimely (w : Watch) (log : List Event) : Prop where
  expired : w.expired = true → .expired ∈ log
  overdue : w.race.stage = .expired → w.expired = true
  late : IsLate log

/-- Who was told a result was told the one that is stored. -/
structure IsTold (w : Watch) (log : List Event) : Prop where
  told : ∀ c result, .told c result ∈ log → w.race.stage = .finished result
  posted : ∀ id, w.race.stage = .finished (.ok (.fallbackPosted id)) → w.race.observed = true

/-- What holds at every moment. -/
structure Keeps (r : Race) (w : Watch) (log : List Event) : Prop where
  isOnCourse : IsOnCourse r w log
  isMarked : IsMarked w log
  isTimely : IsTimely w log
  isTold : IsTold w log

theorem Step.isOnCourse (move : Step w events w') (henforced : r.enforced = true)
    (h : IsOnCourse r w log) : IsOnCourse r w' (log ++ events) := by
  obtain ⟨observed, stage, hrace⟩ := h.becomes
  have hcourse := h.course
  cases move with
  | starts c hnew =>
    have hstart := start_of_new hnew
    rw [if_pos (by rw [hrace]; exact henforced)] at hstart
    rw [hstart]
    rw [hnew] at hcourse
    exact ⟨⟨_, _, by rw [hrace]⟩, by simpa [Race.entry] using hcourse.started⟩
  | startsAgain c hold =>
    rw [start_of_ne hold]
    exact ⟨h.becomes, by simpa using hcourse⟩
  | marks =>
    exact ⟨⟨true, stage, by rw [hrace]; rfl⟩, by simpa [Race.markObserved] using hcourse⟩
  | races moves =>
    obtain ⟨hcourse, hbecomes⟩ := hcourse.moves h.becomes moves
    exact ⟨hbecomes, by simpa using hcourse⟩
  | _ => exact ⟨h.becomes, by simpa using hcourse⟩

theorem Step.isMarked (move : Step w events w') (h : IsMarked w log) : IsMarked w' (log ++ events) := by
  have hunseen (hno : w'.race.observed = false) : w.race.observed = false := by
    by_contra hyes
    rw [move.observed (by simpa using hyes)] at hno
    contradiction
  obtain ⟨hunmarked, hfirst⟩ := h
  cases move with
  | marks =>
    refine ⟨fun hno => absurd hno (by simp [Race.markObserved]), ?_⟩
    cases hobserved : w.race.observed with
    | true => simpa [hobserved] using hfirst
    | false => simp [hunmarked hobserved]
  | _ => exact ⟨fun hno => by simpa using hunmarked (hunseen hno), by simpa using hfirst⟩

/-- The one move that has the fallback posted. -/
theorem Step.posts_cases (move : Step w events w') :
    (∀ p, .did (.posts p) ∉ events) ∨
      (w.race.stage = .expired ∧ w.race.observed = false ∧
        events = [.did (.looksAgain false), .did (.posts w.race.fallback)]) := by
  cases move with
  | starts c hnew =>
    left
    rw [start_of_new hnew]
    split <;> simp [Race.entry, Race.finish]
  | races moves =>
    cases moves.shift with
    | posts hexpired hunseen => exact .inr ⟨hexpired, hunseen, rfl⟩
    | _ => exact .inl (by simp)
  | _ => exact .inl (by simp)

theorem Step.overdue (move : Step w events w') (h : w.race.stage = .expired → w.expired = true) :
    w'.race.stage = .expired → w'.expired = true := by
  intro hstage
  cases move with
  | starts c hnew =>
    rw [start_of_new hnew] at hstage
    split at hstage <;> cases hstage
  | startsAgain c hold =>
    rw [start_of_ne hold] at hstage
    exact h hstage
  | expires => rfl
  | races moves =>
    cases moves.shift with
    | ranOut _ hexpired => exact hexpired
    | waits => exact h hstage
    | _ => cases hstage
  | _ => exact h hstage

theorem Step.isTimely (move : Step w events w') (hmarked : IsMarked w log) (h : IsTimely w log) :
    IsTimely w' (log ++ events) := by
  refine ⟨?_, move.overdue h.overdue, fun p hp => ?_⟩
  · cases move with
    | expires => simp
    | _ => exact fun hexpired => List.mem_append_left _ (h.expired hexpired)
  -- the fallback was posted before, or it is posted now
  · by_cases hold : .did (.posts p) ∈ log
    · obtain ⟨before, after, rfl, hbefore⟩ := h.late p hold
      exact ⟨before, after ++ events, by simp, hbefore⟩
    · have hnew := (List.mem_append.1 hp).resolve_left hold
      rcases move.posts_cases with hnone | ⟨hexpired, hunseen, rfl⟩
      · exact absurd hnew (hnone p)
      · obtain rfl : p = w.race.fallback := by simpa using hnew
        exact ⟨log, [], rfl, h.expired (h.overdue hexpired), hmarked.unmarked hunseen⟩

theorem finished_of_wait {result : Except DeadlineError Outcome} (h : r.wait false = some result) :
    r.stage = .finished result := by
  unfold Race.wait at h
  split at h
  next hresult =>
    obtain rfl := Option.some.inj h
    exact result?_eq_some.1 hresult
  next => simp at h

theorem Step.posted (move : Step w events w') {id : String}
    (h : w.race.stage = .finished (.ok (.fallbackPosted id)) → w.race.observed = true)
    (hid : w'.race.stage = .finished (.ok (.fallbackPosted id))) : w'.race.observed = true := by
  cases move with
  | starts c hnew =>
    rw [start_of_new hnew] at hid
    split at hid <;> cases hid
  | startsAgain c hold =>
    rw [start_of_ne hold] at hid ⊢
    exact h hid
  | marks => rfl
  | races moves =>
    cases moves.shift with
    | waits => exact h hid
    | posted => rfl
    | _ => cases hid
  | _ => exact h hid

theorem Step.isTold (move : Step w events w') (h : IsTold w log) : IsTold w' (log ++ events) := by
  refine ⟨fun c result htold => ?_, fun id => move.posted (h.posted id)⟩
  rcases List.mem_append.1 htold with hold | hnew
  · exact move.finished (h.told c result hold)
  · cases move with
    | told c' htells =>
      obtain ⟨rfl, rfl⟩ : c = c' ∧ result = _ := by simpa using hnew
      exact finished_of_wait htells
    | _ => simp at hnew

/-- Whoever moves, it goes on to hold. -/
theorem Step.keeps (move : Step w events w') (henforced : r.enforced = true) (h : Keeps r w log) :
    Keeps r w' (log ++ events) where
  isOnCourse := move.isOnCourse henforced h.isOnCourse
  isMarked := move.isMarked h.isMarked
  isTimely := move.isTimely h.isMarked h.isTimely
  isTold := move.isTold h.isTold

/-- It holds of a race that nobody has started yet. -/
theorem keeps_new (hnew : r.stage = .notStarted) : Keeps r { race := r } [] where
  isOnCourse := {
    becomes := ⟨r.observed, r.stage, rfl⟩
    course := .underWay (.inl hnew) }
  isMarked := {
    unmarked := fun _ => rfl
    first := Nat.zero_le 1 }
  isTimely := {
    expired := by simp
    overdue := by simp [hnew]
    late := by simp [IsLate] }
  isTold := {
    told := by simp
    posted := by simp [hnew] }

theorem Run.keeps (run : Run { race := r } log w) (hnew : r.stage = .notStarted)
    (henforced : r.enforced = true) : Keeps r w log := by
  induction run with
  | start => exact keeps_new hnew
  | step _ move ih => exact move.keeps henforced ih

theorem Run.observed (run : Run w log w') (h : w.race.observed = true) : w'.race.observed = true := by
  induction run with
  | start => exact h
  | step _ move ih => exact move.observed ih

theorem Run.result?_eq {result : Except DeadlineError Outcome} (run : Run w log w')
    (h : w.race.result? = some result) : w'.race.result? = some result := by
  rw [result?_eq_some] at h ⊢
  induction run with
  | start => exact h
  | step _ move ih => exact move.finished ih

/-! ### One result -/

/-- What there is to say of a watched race at any moment. -/
structure Settles (r : Race) (w : Watch) (log : List Event) : Prop where
  /-- One result is stored, and none before the race has ended. -/
  stored : Deed.stored (deeds log) = w.race.result?.toList
  /-- All who were told a result were told this one. -/
  told : ∀ c result, .told c result ∈ log → w.race.result? = some result
  /-- Whatever comes, the result stays. -/
  resultStays : ∀ {log' w'} {result : Except DeadlineError Outcome}, Run w log' w' →
    w.race.result? = some result → w'.race.result? = some result
  /-- Whatever comes, a thought that was seen stays seen. -/
  observedStays : ∀ {log' w'}, Run w log' w' → w.race.observed = true → w'.race.observed = true
  /-- At most one call that marks a thought was told that it was the first. -/
  first : (marks log).count true ≤ 1
  /-- The fallback is posted once at most. -/
  fallback : Deed.fallbacks (deeds log) = [] ∨ Deed.fallbacks (deeds log) = [r.fallback]
  late : IsLate log
  /-- The result says which calls were made and what they were answered. -/
  explains : ∀ {result}, w.race.result? = some result → r.Explains (deeds log) result
  /-- A fallback that was posted is a thought that was seen. -/
  posted : ∀ {id}, w.race.result? = some (.ok (.fallbackPosted id)) → w.race.observed = true

theorem Keeps.settles (h : Keeps r w log) : Settles r w log where
  stored := h.isOnCourse.course.stored_eq
  told c result htold := result?_eq_some.2 (h.isTold.told c result htold)
  resultStays := Run.result?_eq
  observedStays := Run.observed
  first := h.isMarked.first
  fallback := h.isOnCourse.course.fallbacks_eq
  late := h.isTimely.late
  explains hresult := Race.Course.explains (result?_eq_some.1 hresult ▸ h.isOnCourse.course)
  posted hresult := h.isTold.posted _ (result?_eq_some.1 hresult)

/-- An event that creates a session with an id has a race, and however this race is started, marked,
cancelled, waited for and answered, and whenever its deadline passes, it settles on one result. -/
theorem race_settles (e : SessionEvent) (config : DeadlineConfig) (records : Bool)
    (hcreated : e.isCreated = true) (hfilled : Text.isBlankText e.session.id = false) :
    ∃ r, Race.of? e config records = .ok r ∧ r.records = records ∧
      r.fallback = ⟨Text.trim e.session.id, Text.trim e.session.id ++ ":thought:first-sla-fallback",
        .thought config.fallbackBody⟩ ∧
      (∀ now cause, r.violation now cause = ⟨Text.trim e.session.id, config.deadline, now, cause⟩) ∧
      ∀ log w, Run { race := r } log w → Settles r w log := by
  refine ⟨_, Race.of?_of_filled hcreated hfilled config records, rfl, ?_, fun _ _ => rfl, ?_⟩
  · simp only [Race.fallback, fallbackKey, SessionEvent.sessionId, Text.trim_trim]
  · exact fun log w run => (run.keeps rfl rfl).settles

/-- An event that creates a session. -/
def errand : SessionEvent := { action := .known .created, session := { id := " s " } }

/-- The deadline of the errand passes, a thought is marked while the fallback is on its way, the fallback
fails, a call that waits gives up, and the violation cannot be put on record either. -/
theorem race_settles_unrecorded :
    ∃ r log w, Race.of? errand {} true = .ok r ∧ Run { race := r } log w ∧
      w.race.result? = some (.error (.recordFailed (r.violation .epoch default) default)) ∧
      marks log = [true] ∧ .gaveUp 1 ∈ log ∧ Settles r w log := by
  obtain ⟨r, hr, -, -, -, hsettles⟩ := race_settles errand {} true (by decide) (by decide)
  have hrace := hr
  rw [Race.of?_of_filled (by decide) (by decide)] at hrace
  obtain rfl := Except.ok.inj hrace
  have hnew : Run ⟨⟨errand.sessionId, true, {}, true, false, .notStarted⟩, none, [], false⟩ [] _ := .start
  have hstarted := (hnew.step (.starts 0 rfl)).step (.startsAgain 1 (by simp [Race.start]))
  have hexpired := hstarted.step .expires
  have hdecided := hexpired.step (.races (.decided (c := false) (x := true) nofun (fun _ => rfl) rfl))
  have hposting := (hdecided.step (.races (.rechecked rfl))).step .marks
  have hposted := hposting.step (.races (.posted rfl .epoch (.error default)))
  have hgaveUp := (hposted.step (.cancels 1)).step (.gaveUp (List.mem_singleton_self 1))
  have hrecorded := (hgaveUp.step (.races (.recorded rfl (.error default)))).step (.told 2 rfl)
  exact ⟨_, _, _, hr, hrecorded, rfl, rfl, by simp, hsettles _ _ hrecorded⟩

end Watch
end AgentRelay.Deadline
