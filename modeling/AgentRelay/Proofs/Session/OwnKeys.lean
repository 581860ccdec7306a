import AgentRelay.Proofs.Queue.Delivery
import AgentRelay.Proofs.Session.Heard
import AgentRelay.Service
import Mathlib.Data.List.Nodup

/-!
# A job posts under its own keys

A job may be processed again and again, and whatever happened before, its posts land on the same activities:
each goes under one of four keys, which its delivery decides and which no other delivery's thought or
response goes under.

* `SessionStep.MayPost` are the posts that processing a step may make, in any order of its moves.
  `MayPost.cases` says what they are.
* `Job.ownKeys` are the four keys. `Job.posts_own_keys` says that there are no other posts, and how the
  keys are told apart.
* `Service.replays_keep`: what posts under these keys leave alone, any number of replays leave alone.
-/

namespace AgentRelay

open Script

/-- What a question of the runner posts. -/
def RunnerQuestion.post? : RunnerQuestion TurnQuestion → Option Post
  | .think p => some p
  | .other (.respond p) => some p
  | .other _ => none

/-- What a race is posting: the fallback, or the violation that it puts on record. -/
def Deadline.Race.post? (r : Race) : Option Post :=
  match r.stage with
  | .posting => some r.fallback
  | .recording v => some (recordPost v)
  | _ => none

namespace SessionStep

/-- A post that processing the step may make, whatever it is answered and whoever moves first. -/
inductive MayPost (s : SessionStep) (config : DeadlineConfig) (records : Bool) (p : Post) : Prop
  | worked {q : RunnerQuestion TurnQuestion} (route : s.route config records = .work)
      (asks : (turn s).Asks q) (posts : q.post? = some p)
  | ran {race : Deadline.Race} {moves : List (Live.Move TurnAnswer)} {l : Live TurnAnswer}
      {q : RunnerQuestion TurnQuestion} (route : s.route config records = .watch race)
      (steps : Live.Steps (.start race (turn s)) moves l) (asks : l.runner.Asks q)
      (posts : q.post? = some p)
  | raced {race : Deadline.Race} {moves : List (Live.Move TurnAnswer)} {l : Live TurnAnswer}
      (route : s.route config records = .watch race)
      (steps : Live.Steps (.start race (turn s)) moves l) (posts : l.race.post? = some p)

variable {s : SessionStep} {config : DeadlineConfig} {records : Bool} {p : Post}

/-! ### The runner -/

theorem asks_respond {failure : Option Failure} {q : RunnerQuestion TurnQuestion}
    (h : (Turn.respond s failure).Asks q) : q = .other (.respond (s.endResponse failure)) := by
  cases h with
  | now => rfl
  | later r rest => cases rest

/-- Work on a step posts its thought and its response. -/
theorem post_of_asks {q : RunnerQuestion TurnQuestion} (h : (turn s).Asks q) (hq : q.post? = some p) :
    p = s.startThought ∨ ∃ failure, p = s.endResponse failure := by
  cases h with
  | now => exact .inl (Option.some.inj hq).symm
  | later r rest =>
    match r, rest with
    | .error f, rest => cases rest
    | .ok id, rest =>
      cases rest with
      | now => cases hq
      | later r rest =>
        right
        -- links that the run has left come before the response
        dsimp only at rest
        split at rest
        · obtain rfl := asks_respond rest
          exact ⟨_, (Option.some.inj hq).symm⟩
        · cases rest with
          | now => cases hq
          | later _ rest =>
            obtain rfl := asks_respond rest
            exact ⟨_, (Option.some.inj hq).symm⟩

end SessionStep

/-- A runner asks only what it would have asked at the start. -/
theorem Live.Steps.asks {Q : Type} {R : Q → Type} {l l' : Live R} {moves : List (Live.Move R)}
    {q : RunnerQuestion Q} (h : Live.Steps l moves l') (hq : l'.runner.Asks q) : l.runner.Asks q := by
  induction h with
  | refl => exact hq
  | head first _ ih =>
    cases first with
    | answered r => exact .later r (ih hq)
    | watched => exact ih hq

/-! ### The race -/

/-- A move of the race changes nothing, or the race makes it by itself. -/
theorem Live.same_or_moves {Q : Type} {R : Q → Type} {m : Live.Move R}
    {move : Deadline.Race → Deadline.Race} (h : m.race? = some move) (r : Deadline.Race) :
    move r = r ∨ ∃ deeds, r.Moves true true deeds (move r) := by
  cases m with
  | answered => cases h
  | decided cancelled expired =>
    cases h
    by_cases hracing : r.stage = .racing
    · exact .inr ⟨_, .decided (fun _ => rfl) (fun _ => rfl) hracing⟩
    · exact .inl (Deadline.Race.decide_of_ne hracing cancelled expired)
  | rechecked =>
    cases h
    by_cases hexpired : r.stage = .expired
    · exact .inr ⟨_, .rechecked hexpired⟩
    · exact .inl (Deadline.Race.recheck_of_ne hexpired)
  | posted now result =>
    cases h
    by_cases hposting : r.stage = .posting
    · exact .inr ⟨_, .posted hposting now result⟩
    · exact .inl (Deadline.Race.posted_of_ne hposting now result)
  | recorded result =>
    cases h
    by_cases hrecording : ∃ v, r.stage = .recording v
    · obtain ⟨v, hv⟩ := hrecording
      exact .inr ⟨_, .recorded hv result⟩
    · exact .inl (Deadline.Race.recorded_of_ne (not_exists.1 hrecording) result)

namespace Deadline.Race

/-- The race is for a session, and so is a violation that it puts on record. -/
structure IsFor (id : String) (r : Race) : Prop where
  session : r.sessionId = id
  violation : ∀ v, r.stage = .recording v → v.sessionId = id

variable {id : String} {r r' : Race}

theorem IsFor.of_stage (hsession : r.sessionId = id) (hstage : ∀ v, r.stage ≠ .recording v) : r.IsFor id :=
  ⟨hsession, fun v hv => absurd hv (hstage v)⟩

theorem IsFor.start (h : r.IsFor id) : r.start.IsFor id := by
  unfold Race.start
  split
  · split <;> exact .of_stage h.session (by simp)
  · exact h

theorem IsFor.moves {cancelled expired : Bool} {deeds : List Deed} (h : r.IsFor id)
    (moves : r.Moves cancelled expired deeds r') : r'.IsFor id := by
  cases moves.shift with
  | waits => exact h
  | records =>
    refine ⟨h.session, fun v hv => ?_⟩
    cases hv
    exact h.session
  | _ => exact .of_stage h.session (by simp [finish])

theorem IsFor.observe {Q : Type} {R : Q → Type} (h : r.IsFor id) (q : RunnerQuestion Q)
    (a : RunnerAnswer R q) : (Live.observe r q a).IsFor id := by
  match q, a with
  | .other _, _ => exact h
  | .think _, .error _ => exact h
  | .think _, .ok _ => exact ⟨h.session, h.violation⟩

theorem IsFor.steps {Q : Type} {R : Q → Type} {l l' : Live R} {moves : List (Live.Move R)}
    (hsteps : Live.Steps l moves l') (h : l.race.IsFor id) : l'.race.IsFor id := by
  induction hsteps with
  | refl => exact h
  | head first _ ih =>
    refine ih ?_
    cases first with
    | @answered _ q _ r => exact h.observe q r
    | watched isRace =>
      rcases Live.same_or_moves isRace _ with hsame | ⟨_, hmoves⟩
      · rw [Live.watched, hsame]
        exact h
      · exact h.moves hmoves

/-- A race posts the fallback of its session or a violation in it. -/
theorem IsFor.post (h : r.IsFor id) {p : Post} (hp : r.post? = some p) :
    (∃ body, p = ⟨id, fallbackKey id, .thought body⟩) ∨ ∃ v, v.sessionId = id ∧ p = recordPost v := by
  unfold post? at hp
  split at hp
  · obtain rfl := Option.some.inj hp
    exact .inl ⟨r.config.fallbackBody, by rw [fallback, h.session]⟩
  · obtain rfl := Option.some.inj hp
    exact .inr ⟨_, h.violation _ ‹_›, rfl⟩
  · cases hp

end Deadline.Race

namespace SessionStep

variable {s : SessionStep} {config : DeadlineConfig} {records : Bool} {p : Post}

/-- The race of a step is for its session, and only a created step has one. -/
theorem isFor_of_route {race : Deadline.Race} (h : s.route config records = .watch race) :
    s.event.isCreated = true ∧ race.start.IsFor s.event.sessionId := by
  unfold route at h
  split at h
  next haction =>
    split at h
    next hrace =>
      obtain rfl := Route.watch.inj h
      refine ⟨by simp [SessionEvent.isCreated, haction], Deadline.Race.IsFor.start ?_⟩
      unfold Deadline.Race.of? at hrace
      split at hrace
      · cases hrace
      · obtain rfl := Except.ok.inj hrace
        exact .of_stage rfl (by simp)
    next => cases h
  next => cases h
  next => cases h

/-- What processing a step posts. -/
theorem MayPost.cases (h : s.MayPost config records p) :
    p = s.startThought ∨ (∃ failure, p = s.endResponse failure) ∨
      s.event.isCreated = true ∧
        ((∃ body, p = ⟨s.event.sessionId, Deadline.fallbackKey s.event.sessionId, .thought body⟩) ∨
          ∃ v, v.sessionId = s.event.sessionId ∧ p = Deadline.recordPost v) := by
  cases h with
  | worked _ asks posts => exact (post_of_asks asks posts).imp_right .inl
  | ran _ steps asks posts => exact (post_of_asks (steps.asks asks) posts).imp_right .inl
  | raced route steps posts =>
    obtain ⟨hcreated, hstart⟩ := isFor_of_route route
    exact .inr (.inr ⟨hcreated, (Deadline.Race.IsFor.steps steps hstart).post posts⟩)

/-- A step that creates a session posts the fallback when nothing happens before the deadline. -/
theorem mayPost_fallback (hcreated : s.event.isCreated = true)
    (hfilled : Text.isBlankText s.event.session.id = false) (config : DeadlineConfig) (records : Bool) :
    s.MayPost config records
      ⟨s.event.sessionId, Deadline.fallbackKey s.event.sessionId, .thought config.fallbackBody⟩ :=
  .raced (s.route_of_filled hcreated hfilled config records)
    (.head (m := .decided false true) (.watched rfl) (.head (m := .rechecked) (.watched rfl) (.refl _))) rfl

end SessionStep

/-! ### The keys -/

namespace Job

/-- The keys that a job may post under, each with the kind of its activity. -/
def ownKeys (j : Job) : List (String × ContentKind) :=
  [(j.idempotencyKey ++ ":thought", .known .thought), (j.idempotencyKey ++ ":response", .known .response),
    (j.sessionId ++ ":thought:first-sla-fallback", .known .thought),
    (j.sessionId ++ ":response:first-sla-error", .known .response)]

/-- The last character of a key. -/
def lastChar (key : String) : Option Char := key.toList.getLast?

theorem lastChar_append (front : String) {ending : String} (h : ending ≠ "") :
    lastChar (front ++ ending) = lastChar ending := by
  have hne : ending.toList ≠ [] := fun hnil => h (String.toList_eq_nil_iff.1 hnil)
  obtain ⟨c, hc⟩ := Option.ne_none_iff_exists'.1 (List.getLast?_eq_none_iff.not.2 hne)
  rw [lastChar, lastChar, String.toList_append, List.getLast?_append, hc]
  rfl

theorem nodup_ownKeys (j : Job) : (j.ownKeys.map Prod.fst).Nodup := by
  -- the keys end in different characters
  refine List.Nodup.of_map lastChar ?_
  simp only [ownKeys, List.map_cons, List.map_nil]
  rw [lastChar_append _ (by decide), lastChar_append _ (by decide), lastChar_append _ (by decide),
    lastChar_append _ (by decide)]
  decide

theorem sessionId_of_ofDelivery {e : SessionEvent} {body : Bytes} {id : Option String} {receivedAt : Instant}
    {j : Job} (h : ofDelivery e body id receivedAt = .ok j) : j.sessionId = e.sessionId := by
  unfold ofDelivery at h
  split at h
  · cases h
  · obtain rfl := Except.ok.inj h
    rfl

/-- There is nothing to trim off a key. -/
theorem filled?_key (step : String) : Text.filled? (Identity.key step) = some (Identity.key step) := by
  rw [Text.filled?, if_neg (by simp [isBlankText_key]), Identity.trim_key]

/-- The step of a job works under the key of the job. -/
theorem baseKey_ofJob {e : SessionEvent} {body : Bytes} {id : Option String} {receivedAt : Instant} {j : Job}
    (h : ofDelivery e body id receivedAt = .ok j) : (SessionStep.ofJob j).baseKey = j.idempotencyKey := by
  obtain ⟨-, -, hkey⟩ := ofDelivery_eq_ok h
  simp [SessionStep.ofJob, Text.firstFilled?, hkey, filled?_key]

/-- What processing a job posts goes under its own keys. -/
theorem mem_ownKeys {e : SessionEvent} {body : Bytes} {id : Option String} {receivedAt : Instant} {j : Job}
    (h : ofDelivery e body id receivedAt = .ok j) {config : DeadlineConfig} {records : Bool} {p : Post}
    (hp : (SessionStep.ofJob j).MayPost config records p) :
    (p.key, p.utterance.content.kind) ∈ j.ownKeys ∧
      (j.event.isCreated = false → (p.key, p.utterance.content.kind) ∈ j.ownKeys.take 2) := by
  have hbase := baseKey_ofJob h
  have hsession : j.sessionId = j.event.sessionId := by
    rw [sessionId_of_ofDelivery h, (ofDelivery_eq_ok h).1]
  have hfallback : Deadline.fallbackKey j.event.sessionId =
      j.sessionId ++ ":thought:first-sla-fallback" := by
    rw [Deadline.fallbackKey, SessionEvent.sessionId, Text.trim_trim, hsession, SessionEvent.sessionId]
  rcases hp.cases with rfl | ⟨failure, rfl⟩ | ⟨hcreated, hrace⟩
  · simp [SessionStep.startThought, SessionStep.thoughtKey, hbase, ownKeys, Utterance.content]
  · simp [SessionStep.endResponse, SessionStep.responseKey, hbase, ownKeys, Utterance.content]
  · refine ⟨?_, fun hother => absurd (hcreated.symm.trans hother) (by simp)⟩
    rcases hrace with ⟨body, rfl⟩ | ⟨v, hv, rfl⟩
    · simp [SessionStep.ofJob, hfallback, ownKeys, Utterance.content]
    · simp [SessionStep.ofJob, hv, hsession, Deadline.recordPost, ownKeys, Utterance.content]

/-- Keys that end in different characters are different. -/
theorem append_ne {front front' ending ending' : String} (h : lastChar ending ≠ lastChar ending')
    (hne : ending ≠ "") (hne' : ending' ≠ "") : front ++ ending ≠ front' ++ ending' := by
  intro heq
  apply h
  rw [← lastChar_append front hne, heq, lastChar_append front' hne']

/-- The keys of the thought and the response of a job are no keys of another. -/
theorem ownKeys_disjoint {j k : Job} (h : k.idempotencyKey ≠ j.idempotencyKey) :
    ∀ key ∈ (k.ownKeys.take 2).map Prod.fst, key ∉ j.ownKeys.map Prod.fst := by
  simp only [ownKeys, List.take_succ_cons, List.take_zero, List.map_cons, List.map_nil, List.mem_cons,
    List.not_mem_nil, or_false]
  rintro key (rfl | rfl) (heq | heq | heq | heq)
  -- what stands in front of the same ending tells the jobs apart
  case inl.inl => exact h (String.append_left_inj _ |>.1 heq)
  case inr.inr.inl => exact h (String.append_left_inj _ |>.1 heq)
  all_goals exact absurd heq (append_ne (by decide) (by decide) (by decide))

end Job

/-! ### Replays -/

/-- The action leaves `I` alone and has a result that satisfies `P`. -/
def Leaves {σ α : Type} (I : σ → Prop) (P : α → Prop) (x : StateM σ α) : Prop :=
  ∀ state, I state → P (x.run state).1 ∧ I (x.run state).2

section Leaves

variable {σ α β : Type} {I : σ → Prop} {P : α → Prop} {P' : β → Prop} {x : StateM σ α} {f : α → StateM σ β}

theorem leaves_pure {a : α} (h : P a) : Leaves I P (pure a) := fun _ hstate => ⟨h, hstate⟩

theorem Leaves.bind (hx : Leaves I P x) (hf : ∀ a, P a → Leaves I P' (f a)) : Leaves I P' (x >>= f) := by
  intro state hstate
  rcases hrun : x.run state with ⟨a, state'⟩
  obtain ⟨ha, hstate'⟩ := hx state hstate
  rw [hrun] at ha hstate'
  rw [run_bind_eq hrun]
  exact hf a ha state' hstate'

end Leaves

namespace Session.Surroundings

variable {σ : Type} {I : σ → Prop} {s : Surroundings (StateM σ) TurnAnswer} {step : SessionStep}
  {config : DeadlineConfig}

/-- Posts that the step may make leave `I` alone, and so does everything that posts nothing. -/
structure LeavesAlone (s : Surroundings (StateM σ) TurnAnswer) (I : σ → Prop) (step : SessionStep)
    (config : DeadlineConfig) : Prop where
  answers : ∀ q, (∀ p, q.post? = some p → step.MayPost config s.record.isSome p) →
    Leaves I (fun _ => True) (s.answer q)
  records : ∀ record ∈ s.record, ∀ v, step.MayPost config s.record.isSome (Deadline.recordPost v) →
    Leaves I (fun _ => True) (record v)
  passes : ∀ span, Leaves I (fun _ => True) (s.deadlinePasses span)
  now : Leaves I (fun _ => True) s.now

/-- What a created step has come to. -/
def Reached (step : SessionStep) (race : Deadline.Race) (l : Live TurnAnswer) : Prop :=
  ∃ moves, Live.Steps (.start race (turn step)) moves l

theorem Reached.move {race : Deadline.Race} {l l' : Live TurnAnswer} {m : Live.Move TurnAnswer}
    (h : Reached step race l) (move : Live.Step l m l') : Reached step race l' := by
  obtain ⟨moves, hsteps⟩ := h
  exact ⟨_, hsteps.append (.head move (.refl _))⟩

theorem Reached.raced {race r : Deadline.Race} {runner : Runner TurnAnswer} (h : Reached step race ⟨r, runner⟩)
    (m : Live.Move TurnAnswer) {move : Deadline.Race → Deadline.Race} (hm : m.race? = some move) :
    Reached step race ⟨move r, runner⟩ := h.move (.watched hm)

/-- The runner. -/
theorem LeavesAlone.runWatched (h : s.LeavesAlone I step config) {race : Deadline.Race}
    (hroute : step.route config s.record.isSome = .watch race) {r : Deadline.Race}
    {runner : Runner TurnAnswer} (hreached : Reached step race ⟨r, runner⟩) :
    Leaves I (fun x => Reached step race ⟨x.2, .done x.1⟩) (s.runWatched r runner) := by
  induction runner generalizing r with
  | done run => exact leaves_pure hreached
  | ask q next ih =>
    have hposts : ∀ p, q.post? = some p → step.MayPost config s.record.isSome p := by
      intro p hp
      obtain ⟨moves, hsteps⟩ := hreached
      exact .ran hroute hsteps (.now next) hp
    exact (h.answers q hposts).bind fun a _ => ih a (hreached.move (.answered a))

/-- The race as far as it goes. -/
theorem LeavesAlone.advance (h : s.LeavesAlone I step config) {race : Deadline.Race}
    (hroute : step.route config s.record.isSome = .watch race) {r : Deadline.Race}
    {runner : Runner TurnAnswer} (hreached : Reached step race ⟨r, runner⟩) (cancelled expired : Bool) :
    Leaves I (fun r' => Reached step race ⟨r', runner⟩) (s.advance r cancelled expired) := by
  have hrechecked : Reached step race ⟨(r.decide cancelled expired).recheck, runner⟩ :=
    (hreached.raced (.decided cancelled expired) rfl).raced .rechecked rfl
  unfold Surroundings.advance Deadline.Race.advance
  generalize (r.decide cancelled expired).recheck = r₁ at hrechecked ⊢
  dsimp only
  split
  · rename_i hposting
    have hfallback : step.MayPost config s.record.isSome r₁.fallback := by
      obtain ⟨moves, hsteps⟩ := hrechecked
      exact .raced hroute hsteps (by simp [Deadline.Race.post?, hposting])
    have hthink : Leaves I (fun _ => True) (s.think r₁.fallback) :=
      h.answers (.think r₁.fallback) fun p hp => Option.some.inj hp ▸ hfallback
    refine (hthink.bind fun a _ => leaves_pure (P := fun _ => True) trivial).bind fun a _ => ?_
    cases a with
    | none => exact leaves_pure hrechecked
    | some result =>
      refine h.now.bind fun t _ => ?_
      have hposted : Reached step race ⟨r₁.posted t result, runner⟩ :=
        hrechecked.raced (.posted t result) rfl
      split
      · rename_i v hrecording
        have hviolation : step.MayPost config s.record.isSome (Deadline.recordPost v) := by
          obtain ⟨moves, hsteps⟩ := hposted
          exact .raced hroute hsteps (by simp [Deadline.Race.post?, hrecording])
        have hrecord : Leaves I (fun _ => True)
            (s.record.elim (pure (.ok ())) fun record => record v) := by
          cases hrecords : s.record with
          | none => exact leaves_pure trivial
          | some record => exact h.records record hrecords v hviolation
        exact hrecord.bind fun answer _ => leaves_pure (hposted.raced (.recorded answer) rfl)
      · exact leaves_pure hposted
  · exact leaves_pure hrechecked

/-- The race, also when it waits for its deadline. -/
theorem LeavesAlone.finishRace (h : s.LeavesAlone I step config) {race : Deadline.Race}
    (hroute : step.route config s.record.isSome = .watch race) {r : Deadline.Race}
    {runner : Runner TurnAnswer} (hreached : Reached step race ⟨r, runner⟩) :
    Leaves I (fun _ => True) (s.finishRace r) := by
  rw [finishRace_eq]
  refine (h.advance hroute hreached false false).bind fun r₁ hreached₁ => ?_
  split
  · refine (h.passes _).bind fun passes _ => ?_
    exact fun state hstate => ⟨trivial, (h.advance hroute hreached₁ _ _ state hstate).2⟩
  · exact leaves_pure trivial

theorem LeavesAlone.process (h : s.LeavesAlone I step config) :
    Leaves I (fun _ => True) (s.process config turn step) := by
  unfold Surroundings.process
  cases hroute : step.route config s.record.isSome with
  | refuse e => exact leaves_pure trivial
  | work =>
    refine Leaves.bind (P := fun _ => True) ?_ fun _ _ => leaves_pure trivial
    refine fun state hstate => ⟨trivial, run_keeps (fun q hq state' hstate' => ?_) hstate⟩
    exact (h.answers q (fun p hp => .worked hroute hq hp) state' hstate').2
  | watch race =>
    refine (h.runWatched hroute ⟨[], .refl _⟩).bind fun x hreached => ?_
    refine (h.finishRace hroute hreached).bind fun r _ => ?_
    split <;> exact leaves_pure trivial

end Session.Surroundings

namespace Service

variable {σ : Type} {I : σ → Prop} {parts : Parts (StateM σ)} {j : Job}

/-- Posts under the keys of the job leave `I` alone, and so does everything that is no post. -/
structure Spares (parts : Parts (StateM σ)) (I : σ → Prop) (j : Job) : Prop where
  post : ∀ p, (p.key, p.utterance.content.kind) ∈ j.ownKeys → Leaves I (fun _ => True) (parts.post p)
  link : ∀ update, Leaves I (fun _ => True) (parts.link update)
  runAgent : ∀ request, Leaves I (fun _ => True) (parts.runAgent request)
  deadlinePasses : ∀ span, Leaves I (fun _ => True) (parts.deadlinePasses span)
  now : Leaves I (fun _ => True) parts.now

theorem Spares.leavesAlone (h : Spares parts I j) (config : DeadlineConfig)
    (hkeys : ∀ p, (SessionStep.ofJob j).MayPost config true p →
      (p.key, p.utterance.content.kind) ∈ j.ownKeys) :
    parts.surroundings.LeavesAlone I (SessionStep.ofJob j) config where
  answers q hq := by
    rcases q with p | ⟨request⟩ | ⟨update⟩ | ⟨p⟩
    · exact (h.post p (hkeys p (hq p rfl))).bind fun _ _ => leaves_pure trivial
    · exact h.runAgent request
    · exact h.link update
    · exact h.post p (hkeys p (hq p rfl))
  records record hrecord v hv := by
    obtain rfl := Option.some.inj hrecord
    exact (h.post _ (hkeys _ hv)).bind fun _ _ => leaves_pure trivial
  passes := h.deadlinePasses
  now := h.now

/-- What posts under the keys of a job leave alone, any number of calls that process the job leave alone, each
with settings of its own. -/
theorem replays_keep {e : SessionEvent} {body : Bytes} {id : Option String} {receivedAt : Instant}
    (hj : Job.ofDelivery e body id receivedAt = .ok j) (h : Spares parts I j) (calls : List DeadlineConfig) :
    Leaves I (fun _ => True) (calls.mapM fun config => process parts config j) := by
  induction calls with
  | nil => exact leaves_pure trivial
  | cons config calls ih =>
    have hstep := (h.leavesAlone config fun p hp => (Job.mem_ownKeys hj hp).1).process
    rw [List.mapM_cons]
    refine Leaves.bind (P := fun _ => True) ?_ fun _ _ => ih.bind fun _ _ => leaves_pure trivial
    exact hstep.bind fun _ _ => leaves_pure trivial

end Service

namespace Job

/-- The posts of a job keep to its own keys. -/
structure KeepsToOwnKeys (j : Job) : Prop where
  /-- Every post goes under a key of its kind. -/
  mem : ∀ config records p, (SessionStep.ofJob j).MayPost config records p →
    (p.key, p.utterance.content.kind) ∈ j.ownKeys
  /-- The keys of the deadline are for events that create a session. -/
  mem_take : ∀ config records p, (SessionStep.ofJob j).MayPost config records p →
    j.event.isCreated = false → (p.key, p.utterance.content.kind) ∈ j.ownKeys.take 2
  /-- What its posts leave alone is left alone however often the job is processed. -/
  leaves : ∀ {σ : Type} (I : σ → Prop) (parts : Service.Parts (StateM σ)) (calls : List DeadlineConfig),
    Service.Spares parts I j →
      Leaves I (fun _ => True) (calls.mapM fun config => Service.process parts config j)
  nodup : (j.ownKeys.map Prod.fst).Nodup
  /-- The thought and the response of another job go under other keys. -/
  apart : ∀ k : Job, k.idempotencyKey ≠ j.idempotencyKey →
    ∀ key ∈ (k.ownKeys.take 2).map Prod.fst, key ∉ j.ownKeys.map Prod.fst

/-- Whatever a job is answered in whatever order, its posts go under its own keys, each under a key of its
kind, and under those of the deadline only when its event creates a session. So what these posts leave alone
is left alone however often the job is processed. The keys differ from each other, and the thought and the
response of another job go under other keys. -/
theorem posts_own_keys {e : SessionEvent} {body : Bytes} {id : Option String} {receivedAt : Instant} {j : Job}
    (h : ofDelivery e body id receivedAt = .ok j) : j.KeepsToOwnKeys where
  mem _ _ _ hp := (mem_ownKeys h hp).1
  mem_take _ _ _ hp := (mem_ownKeys h hp).2
  leaves _ _ calls hspares := Service.replays_keep h hspares calls
  nodup := nodup_ownKeys j
  apart _ hk := ownKeys_disjoint hk
/-- An event that creates a session. -/
def errand : SessionEvent := { action := .known .created, session := { id := "s" } }

/-- Parts that note the key of every post, and that answer well. -/
def keyLog : Service.Parts (StateM (List String)) where
  post p := fun keys => (.ok "", p.key :: keys)
  link _ := pure (.ok ())
  runAgent _ := pure (.ok .completed)
  deadlinePasses _ := pure true
  now := pure .epoch

theorem spares_keyLog (j : Job) :
    Service.Spares keyLog (fun keys => ∀ key ∈ keys, key ∈ j.ownKeys.map Prod.fst) j where
  post _ hp _ hkeys := ⟨trivial, List.forall_mem_cons.2 ⟨List.mem_map.2 ⟨_, hp, rfl⟩, hkeys⟩⟩
  link _ := leaves_pure trivial
  runAgent _ := leaves_pure trivial
  deadlinePasses _ := leaves_pure trivial
  now := leaves_pure trivial

/-- The errand may post its fallback, under a key of its own, and two calls that process it post under no
other keys than its own. -/
theorem posts_own_keys_twice :
    ∃ j p, ofDelivery errand (Bytes.utf8 "\x7b\x7d") none .epoch = .ok j ∧
      (SessionStep.ofJob j).MayPost {} true p ∧ p.key = "s:thought:first-sla-fallback" ∧
      (p.key, p.utterance.content.kind) ∈ j.ownKeys ∧
      (∀ key ∈ (([{}, {}].mapM fun config => Service.process keyLog config j).run []).2,
        key ∈ j.ownKeys.map Prod.fst) ∧
      "agent-session/v1:t:created:thought" ∉ j.ownKeys.map Prod.fst := by
  obtain ⟨j, hj⟩ : ∃ j, ofDelivery errand (Bytes.utf8 "\x7b\x7d") none .epoch = .ok j :=
    exists_of_isOk (by decide +kernel)
  have hkeeps := posts_own_keys hj
  obtain ⟨hevent, -, hkey⟩ := ofDelivery_eq_ok hj
  have hcreated : j.event.isCreated = true := by
    rw [hevent]
    decide
  have hfilled : Text.isBlankText j.event.session.id = false := by
    rw [hevent]
    decide
  have hpost : (SessionStep.ofJob j).MayPost {} true
      ⟨j.event.sessionId, Deadline.fallbackKey j.event.sessionId, .thought "Processing started."⟩ :=
    SessionStep.mayPost_fallback hcreated hfilled {} true
  let other : Job := { idempotencyKey := "agent-session/v1:t:created" }
  have hother : other.idempotencyKey ≠ j.idempotencyKey := by
    rw [hkey]
    decide +kernel
  have htwice := (hkeeps.leaves _ keyLog [{}, {}] (spares_keyLog j) [] (by simp)).2
  exact ⟨j, _, hj, hpost, by rw [hevent]; decide, hkeeps.mem _ _ _ hpost, htwice,
    hkeeps.apart other hother _ (by decide)⟩

end Job
end AgentRelay
