import AgentRelay.Deadline.Race
import AgentRelay.Proofs.Text.Trim
import AgentRelay.Proofs.Trace

/-!
# The course of a race

A race makes at most two calls: it has the fallback posted, and when that fails it has the violation put
on record. What it has done by the time it comes to a stage is one of a few lists, whatever it saw and
whatever it was answered.

* `Race.Moves` are the moves that a race makes by itself, each with what it does. `Race.Shift` lists
  what may come of them.
* `Race.Course` lists the ways to each stage, `Race.Course.moves` says that a race keeps to them.
* `Race.Advances` is any number of moves; `Race.advances_advance` says that going on as far as possible
  is that, `Race.advance_ends` that it comes to an end.
-/

namespace AgentRelay.Deadline

open Script

/-- What a race does. -/
inductive Deed
  /-- After the deadline it looks for a thought again. -/
  | looksAgain (observed : Bool)
  /-- It has the fallback posted. -/
  | posts (post : Post)
  /-- The post is answered. -/
  | posted (result : Except Failure String)
  /-- It has a violation put on record. -/
  | records (violation : Violation)
  /-- The record is answered. -/
  | recorded (result : Except Failure Unit)
  /-- It stores its result. -/
  | stores (result : Except DeadlineError Outcome)

namespace Deed

/-- The fallback that is to be posted. -/
@[simp] def fallback? : Deed → Option Post
  | posts p => some p
  | _ => none

/-- The answer to the post. -/
@[simp] def postAnswer? : Deed → Option (Except Failure String)
  | posted result => some result
  | _ => none

/-- The violation that is to be put on record. -/
@[simp] def violation? : Deed → Option Violation
  | records v => some v
  | _ => none

/-- The answer to the record. -/
@[simp] def recordAnswer? : Deed → Option (Except Failure Unit)
  | recorded result => some result
  | _ => none

/-- The result that is stored. -/
@[simp] def stored? : Deed → Option (Except DeadlineError Outcome)
  | stores result => some result
  | _ => none

/-- The fallbacks that were to be posted. -/
def fallbacks (deeds : List Deed) : List Post := deeds.filterMap fallback?

/-- The answers to the posts. -/
def postAnswers (deeds : List Deed) : List (Except Failure String) := deeds.filterMap postAnswer?

/-- The violations that were to be put on record. -/
def violations (deeds : List Deed) : List Violation := deeds.filterMap violation?

/-- The answers to the records. -/
def recordAnswers (deeds : List Deed) : List (Except Failure Unit) := deeds.filterMap recordAnswer?

/-- The results that were stored. -/
def stored (deeds : List Deed) : List (Except DeadlineError Outcome) := deeds.filterMap stored?

end Deed

/-- The error that a violation is stored as, by what came of putting it on record. -/
def errorOf (v : Violation) : Except Failure Unit → DeadlineError
  | .ok () => .violated v
  | .error cause => .recordFailed v cause

namespace Race

/-- An event that creates a session with an id has a race. -/
theorem of?_of_filled {e : SessionEvent} (hcreated : e.isCreated = true)
    (hfilled : Text.isBlankText e.session.id = false) (config : DeadlineConfig) (records : Bool) :
    of? e config records = .ok { sessionId := e.sessionId, enforced := true, config, records } := by
  have hne : e.sessionId ≠ "" := fun h => by simp [Text.trim_eq_empty_iff.1 h] at hfilled
  unfold of?
  rw [if_neg (by simp [hne]), hcreated]

/-- The violation when the fallback of a race cannot be posted at a time. -/
def violation (r : Race) (now : Instant) (cause : Failure) : Violation :=
  ⟨r.sessionId, r.config.deadline, now, cause⟩

/-- What a race does as it comes to its stage. -/
def entry (r : Race) : List Deed :=
  match r.stage with
  | .notStarted | .racing | .expired => []
  | .posting => [.posts r.fallback]
  | .recording v => [.records v]
  | .finished result => [.stores result]

/-- A move of a race with what it does. It may see a cancelled caller or the end of the deadline too late,
but not too early. -/
inductive Moves (cancelled expired : Bool) (r : Race) : List Deed → Race → Prop
  | decided {c x : Bool} (isCancelled : c = true → cancelled = true)
      (isExpired : x = true → expired = true) (isRacing : r.stage = .racing) :
      Moves cancelled expired r (r.decide c x).entry (r.decide c x)
  | rechecked (hasExpired : r.stage = .expired) :
      Moves cancelled expired r (.looksAgain r.observed :: r.recheck.entry) r.recheck
  | posted (isPosting : r.stage = .posting) (now : Instant) (result : Except Failure String) :
      Moves cancelled expired r (.posted result :: (r.posted now result).entry) (r.posted now result)
  | recorded {v : Violation} (isRecording : r.stage = .recording v) (result : Except Failure Unit) :
      Moves cancelled expired r (.recorded result :: (r.recorded result).entry) (r.recorded result)

/-- What may come of a move. -/
inductive Shift (cancelled expired : Bool) (r : Race) : List Deed → Race → Prop
  | waits (isRacing : r.stage = .racing) : Shift cancelled expired r [] r
  | gaveUp (isRacing : r.stage = .racing) (isCancelled : cancelled = true) :
      Shift cancelled expired r [.stores (.ok .cancelled)] (r.finish (.ok .cancelled))
  | saw (isRacing : r.stage = .racing) (isObserved : r.observed = true) :
      Shift cancelled expired r [.stores (.ok .observed)] (r.finish (.ok .observed))
  | ranOut (isRacing : r.stage = .racing) (isExpired : expired = true) :
      Shift cancelled expired r [] { r with stage := .expired }
  | sawLate (hasExpired : r.stage = .expired) (isObserved : r.observed = true) :
      Shift cancelled expired r [.looksAgain true, .stores (.ok .observed)] (r.finish (.ok .observed))
  | posts (hasExpired : r.stage = .expired) (isUnobserved : r.observed = false) :
      Shift cancelled expired r [.looksAgain false, .posts r.fallback] { r with stage := .posting }
  | posted (isPosting : r.stage = .posting) (id : String) :
      Shift cancelled expired r [.posted (.ok id), .stores (.ok (.fallbackPosted id))]
        { r with observed := true, stage := .finished (.ok (.fallbackPosted id)) }
  | violated (isPosting : r.stage = .posting) (isUnrecorded : r.records = false) (now : Instant)
      (cause : Failure) :
      Shift cancelled expired r
        [.posted (.error cause), .stores (.error (.violated (r.violation now cause)))]
        (r.finish (.error (.violated (r.violation now cause))))
  | records (isPosting : r.stage = .posting) (isRecorded : r.records = true) (now : Instant)
      (cause : Failure) :
      Shift cancelled expired r [.posted (.error cause), .records (r.violation now cause)]
        { r with stage := .recording (r.violation now cause) }
  | recorded {v : Violation} (isRecording : r.stage = .recording v) (result : Except Failure Unit) :
      Shift cancelled expired r [.recorded result, .stores (.error (errorOf v result))]
        (r.finish (.error (errorOf v result)))

variable {r r' : Race} {cancelled expired : Bool} {deeds : List Deed}

/-! ### What comes of a move -/

theorem decide_of_ne (h : r.stage ≠ .racing) (cancelled expired : Bool) :
    r.decide cancelled expired = r := by
  unfold Race.decide
  split
  · contradiction
  · rfl

theorem recheck_of_ne (h : r.stage ≠ .expired) : r.recheck = r := by
  unfold Race.recheck
  split
  · contradiction
  · rfl

theorem posted_of_ne (h : r.stage ≠ .posting) (now : Instant) (result : Except Failure String) :
    r.posted now result = r := by
  unfold Race.posted
  split
  · contradiction
  · rfl

theorem recorded_of_ne (h : ∀ v, r.stage ≠ .recording v) (result : Except Failure Unit) :
    r.recorded result = r := by
  unfold Race.recorded
  split
  · exact absurd ‹_› (h _)
  · rfl

theorem recheck_of_observed (h : r.stage = .expired) (hobserved : r.observed = true) :
    r.recheck = r.finish (.ok .observed) := by
  simp only [recheck, h]
  rw [if_pos hobserved]

theorem recheck_of_unobserved (h : r.stage = .expired) (hobserved : r.observed = false) :
    r.recheck = { r with stage := .posting } := by
  simp only [recheck, h]
  rw [if_neg (by simp [hobserved])]

theorem posted_ok (h : r.stage = .posting) (now : Instant) (id : String) :
    r.posted now (.ok id) =
      { r with observed := true, stage := .finished (.ok (.fallbackPosted id)) } := by
  simp only [posted, h, markObserved]

theorem posted_error (h : r.stage = .posting) (now : Instant) (cause : Failure) :
    r.posted now (.error cause) =
      if r.records then { r with stage := .recording (r.violation now cause) }
      else r.finish (.error (.violated (r.violation now cause))) := by
  simp only [posted, h, violation]

theorem recorded_eq {v : Violation} (h : r.stage = .recording v) (result : Except Failure Unit) :
    r.recorded result = r.finish (.error (errorOf v result)) := by
  cases result <;> simp only [recorded, h, errorOf]

theorem Moves.shift (h : r.Moves cancelled expired deeds r') : r.Shift cancelled expired deeds r' := by
  cases h with
  | @decided c x hc hx hracing =>
    simp only [Race.decide, hracing]
    split
    · exact .gaveUp hracing (hc ‹_›)
    · split
      · exact .saw hracing ‹_›
      · split
        · exact .ranOut hracing (hx ‹_›)
        · simpa only [entry, hracing] using Shift.waits hracing
  | rechecked hexpired =>
    cases hobserved : r.observed with
    | true =>
      rw [recheck_of_observed hexpired hobserved]
      exact .sawLate hexpired hobserved
    | false =>
      rw [recheck_of_unobserved hexpired hobserved]
      exact .posts hexpired hobserved
  | posted hposting now result =>
    cases result with
    | ok id =>
      rw [posted_ok hposting]
      exact .posted hposting id
    | error cause =>
      rw [posted_error hposting]
      split
      · exact .records hposting ‹_› now cause
      · exact .violated hposting (by simpa using ‹¬ r.records = true›) now cause
  | recorded hrecording result =>
    rw [recorded_eq hrecording]
    exact .recorded hrecording result

/-! ### Courses -/

/-- What a race has done by the time it comes to a stage. -/
inductive Course (r : Race) : List Deed → Stage → Prop
  | underWay {stage : Stage} (isEarly : stage = .notStarted ∨ stage = .racing ∨ stage = .expired) :
      Course r [] stage
  | gaveUp : Course r [.stores (.ok .cancelled)] (.finished (.ok .cancelled))
  | saw : Course r [.stores (.ok .observed)] (.finished (.ok .observed))
  | sawLate : Course r [.looksAgain true, .stores (.ok .observed)] (.finished (.ok .observed))
  | posting : Course r [.looksAgain false, .posts r.fallback] .posting
  | posted (id : String) :
      Course r [.looksAgain false, .posts r.fallback, .posted (.ok id), .stores (.ok (.fallbackPosted id))]
        (.finished (.ok (.fallbackPosted id)))
  | violated (isUnrecorded : r.records = false) (now : Instant) (cause : Failure) :
      Course r [.looksAgain false, .posts r.fallback, .posted (.error cause),
          .stores (.error (.violated (r.violation now cause)))]
        (.finished (.error (.violated (r.violation now cause))))
  | recording (isRecorded : r.records = true) (now : Instant) (cause : Failure) :
      Course r [.looksAgain false, .posts r.fallback, .posted (.error cause),
          .records (r.violation now cause)]
        (.recording (r.violation now cause))
  | recorded (isRecorded : r.records = true) (now : Instant) (cause : Failure)
      (result : Except Failure Unit) :
      Course r [.looksAgain false, .posts r.fallback, .posted (.error cause),
          .records (r.violation now cause), .recorded result,
          .stores (.error (errorOf (r.violation now cause) result))]
        (.finished (.error (errorOf (r.violation now cause) result)))

/-- The race at another time: what it is for stays the same. -/
def Becomes (r r' : Race) : Prop :=
  ∃ observed stage, r' = { r with observed, stage }

variable {r₀ : Race} {past : List Deed}

theorem Course.started (h : r.Course past .notStarted) : r.Course past .racing := by
  cases h
  exact .underWay (.inr (.inl rfl))

/-- A race keeps to its courses. -/
theorem Course.moves (h : r₀.Course past r.stage) (hbecomes : r₀.Becomes r)
    (hmoves : r.Moves cancelled expired deeds r') :
    r₀.Course (past ++ deeds) r'.stage ∧ r₀.Becomes r' := by
  obtain ⟨observed, stage, rfl⟩ := hbecomes
  -- the stage tells how far the course has come
  cases hmoves.shift with
  | waits hracing => exact ⟨by simpa using h, _, _, rfl⟩
  | gaveUp hracing =>
    obtain rfl : stage = .racing := hracing
    cases h
    exact ⟨.gaveUp, _, _, rfl⟩
  | saw hracing =>
    obtain rfl : stage = .racing := hracing
    cases h
    exact ⟨.saw, _, _, rfl⟩
  | ranOut hracing =>
    obtain rfl : stage = .racing := hracing
    cases h
    exact ⟨.underWay (.inr (.inr rfl)), _, _, rfl⟩
  | sawLate hexpired =>
    obtain rfl : stage = .expired := hexpired
    cases h
    exact ⟨.sawLate, _, _, rfl⟩
  | posts hexpired =>
    obtain rfl : stage = .expired := hexpired
    cases h
    exact ⟨.posting, _, _, rfl⟩
  | posted hposting id =>
    obtain rfl : stage = .posting := hposting
    cases h with
    | underWay hearly => simp at hearly
    | posting => exact ⟨.posted id, _, _, rfl⟩
  | violated hposting hunrecorded now cause =>
    obtain rfl : stage = .posting := hposting
    have hunrecorded : r₀.records = false := hunrecorded
    cases h with
    | underWay hearly => simp at hearly
    | posting => exact ⟨.violated hunrecorded now cause, _, _, rfl⟩
  | records hposting hrecorded now cause =>
    obtain rfl : stage = .posting := hposting
    have hrecorded : r₀.records = true := hrecorded
    cases h with
    | underWay hearly => simp at hearly
    | posting => exact ⟨.recording hrecorded now cause, _, _, rfl⟩
  | @recorded v hrecording result =>
    obtain rfl : stage = .recording v := hrecording
    cases h with
    | underWay hearly => simp at hearly
    | recording hrecorded now cause => exact ⟨.recorded hrecorded now cause result, _, _, rfl⟩

/-! ### What a course says -/

theorem Course.stored_eq (h : r₀.Course deeds r.stage) : Deed.stored deeds = r.result?.toList := by
  unfold result?
  generalize r.stage = stage at h ⊢
  cases h with
  | underWay hearly => rcases hearly with rfl | rfl | rfl <;> rfl
  | _ => rfl

theorem Course.fallbacks_eq {stage : Stage} (h : r₀.Course deeds stage) :
    Deed.fallbacks deeds = [] ∨ Deed.fallbacks deeds = [r₀.fallback] := by
  cases h with
  | underWay | gaveUp | saw | sawLate => exact .inl rfl
  | _ => exact .inr rfl

/-- What the result of a race says about its calls. -/
def Explains (r : Race) (deeds : List Deed) : Except DeadlineError Outcome → Prop
  | .ok .skipped => False
  | .ok .cancelled | .ok .observed => Deed.fallbacks deeds = []
  | .ok (.fallbackPosted id) =>
    Deed.fallbacks deeds = [r.fallback] ∧ Deed.postAnswers deeds = [.ok id]
  | .error e => ∃ now cause,
    Deed.fallbacks deeds = [r.fallback] ∧ Deed.postAnswers deeds = [.error cause] ∧
      if r.records then ∃ result, Deed.violations deeds = [r.violation now cause] ∧
        Deed.recordAnswers deeds = [result] ∧ e = errorOf (r.violation now cause) result
      else Deed.violations deeds = [] ∧ e = .violated (r.violation now cause)

theorem Course.explains {result : Except DeadlineError Outcome}
    (h : r.Course deeds (.finished result)) : r.Explains deeds result := by
  cases h with
  | underWay hearly => simp at hearly
  | gaveUp => rfl
  | saw => rfl
  | sawLate => rfl
  | posted id => exact ⟨rfl, rfl⟩
  | violated hunrecorded now cause =>
    refine ⟨now, cause, rfl, rfl, ?_⟩
    rw [if_neg (by simp [hunrecorded])]
    exact ⟨rfl, rfl⟩
  | recorded hrecorded now cause result =>
    refine ⟨now, cause, rfl, rfl, ?_⟩
    rw [if_pos hrecorded]
    exact ⟨result, rfl, rfl, rfl⟩

/-! ### Going on -/

/-- Moves in a row, with all that they do. -/
inductive Advances (cancelled expired : Bool) (r : Race) : List Deed → Race → Prop
  | refl : Advances cancelled expired r [] r
  | move {past deeds : List Deed} {r' r'' : Race} (before : Advances cancelled expired r past r')
      (moves : r'.Moves cancelled expired deeds r'') : Advances cancelled expired r (past ++ deeds) r''

theorem Advances.decide (h : r.Advances cancelled expired past r') :
    ∃ deeds, r.Advances cancelled expired deeds (r'.decide cancelled expired) := by
  by_cases hracing : r'.stage = .racing
  · exact ⟨_, h.move (.decided id id hracing)⟩
  · exact ⟨past, (decide_of_ne hracing _ _).symm ▸ h⟩

theorem Advances.recheck (h : r.Advances cancelled expired past r') :
    ∃ deeds, r.Advances cancelled expired deeds r'.recheck := by
  by_cases hexpired : r'.stage = .expired
  · exact ⟨_, h.move (.rechecked hexpired)⟩
  · exact ⟨past, (recheck_of_ne hexpired).symm ▸ h⟩

/-- A race that goes on as far as it can makes moves only. -/
theorem advances_advance {σ : Type} (r : Race) (cancelled expired : Bool)
    (post : Post → StateM σ (Option (Except Failure String))) (now : StateM σ Instant)
    (record : Violation → StateM σ (Except Failure Unit)) (state : σ) :
    ∃ deeds, r.Advances cancelled expired deeds
      ((r.advance cancelled expired post now record).run state).1 := by
  have hrefl : r.Advances cancelled expired [] r := .refl
  obtain ⟨_, hdecide⟩ := hrefl.decide
  obtain ⟨past, hpast⟩ := hdecide.recheck
  unfold advance
  generalize (r.decide cancelled expired).recheck = r₁ at hpast ⊢
  dsimp only
  split
  · rename_i hposting
    rcases hpost : (post r₁.fallback).run state with ⟨_ | result, state₁⟩
    · exact ⟨past, by rw [run_bind_eq hpost]; exact hpast⟩
    · rcases hnow : now.run state₁ with ⟨t, state₂⟩
      have hposted := hpast.move (.posted hposting t result)
      rw [run_bind_eq hpost]
      dsimp only
      rw [run_bind_eq hnow]
      split
      · rename_i v hrecording
        rcases hrecord : (record v).run state₂ with ⟨r, state₃⟩
        rw [run_bind_eq hrecord]
        exact ⟨_, hposted.move (.recorded hrecording r)⟩
      · exact ⟨_, hposted⟩
  · exact ⟨past, hpast⟩

/-- A race under way comes to the fallback or to its end, or it waits for the deadline. -/
theorem ends_or_waits (h : r.stage = .racing) (cancelled expired : Bool) :
    (r.decide cancelled expired).recheck.stage = .posting ∨
      (r.decide cancelled expired).recheck.result? ≠ none ∨
      (r.decide cancelled expired).recheck.stage = .racing ∧ expired = false := by
  cases cancelled <;> cases hobserved : r.observed <;> cases expired <;>
    simp [Race.decide, Race.recheck, Race.finish, Race.result?, h, hobserved]

/-- With the answer to the fallback a race comes to the record or to its end. -/
theorem records_or_ends (h : r.stage = .posting) (now : Instant) (result : Except Failure String) :
    (∃ v, (r.posted now result).stage = .recording v) ∨ (r.posted now result).result? ≠ none := by
  cases result with
  | ok id => exact .inr (by simp [posted_ok h, result?])
  | error cause =>
    rw [posted_error h]
    split
    · exact .inl ⟨_, rfl⟩
    · exact .inr nofun

/-- A race under way goes on to its end when its calls are answered, or it waits for the deadline. -/
theorem advance_ends {σ : Type} (h : r.stage = .racing) (cancelled expired : Bool)
    {post : Post → StateM σ (Option (Except Failure String))}
    (hpost : ∀ p state, ((post p).run state).1 ≠ none) (now : StateM σ Instant)
    (record : Violation → StateM σ (Except Failure Unit)) (state : σ) :
    ((r.advance cancelled expired post now record).run state).1.result? ≠ none ∨
      ((r.advance cancelled expired post now record).run state).1.stage = .racing ∧ expired = false := by
  have hstage := ends_or_waits h cancelled expired
  unfold advance
  generalize (r.decide cancelled expired).recheck = r₁ at hstage ⊢
  dsimp only
  split
  · rename_i hposting
    left
    rcases hrun : (post r₁.fallback).run state with ⟨_ | result, state₁⟩
    · exact absurd (congrArg Prod.fst hrun) (hpost _ _)
    · rcases hnow : now.run state₁ with ⟨t, state₂⟩
      rw [run_bind_eq hrun]
      dsimp only
      rw [run_bind_eq hnow]
      split
      · rename_i v hrecording
        rcases hrecord : (record v).run state₂ with ⟨answer, state₃⟩
        rw [run_bind_eq hrecord]
        change ((r₁.posted t result).recorded answer).result? ≠ none
        rw [recorded_eq hrecording]
        exact nofun
      · rename_i hother
        exact (records_or_ends hposting t result).resolve_left fun ⟨v, hv⟩ => hother v hv
  · exact hstage.resolve_left ‹_›

end Race
end AgentRelay.Deadline
