import AgentRelay.Proofs.Queue.Delivery
import AgentRelay.Proofs.Trace
import AgentRelay.Webhook.Receive

/-!
# Requests and the jobs that they hand over

A request on the path for deliveries goes through its checks in a fixed order, and the first one that fails
decides the answer. Only a request that passes those of its method, its body, its event and the dispatcher hands
a job over, and it does so once.

* `Course` are the ways in which a delivery is answered, `trace_receive_iff` says that there are no others.
* `Check` are the checks in their order, `Fails` says which of them fail.
* `respond_answers` is what holds of every request on the path for deliveries, and of two with the same body.
-/

namespace AgentRelay.Webhook

open Script Json

/-! ### Courses -/

/-- A question to the dispatcher and what it was answered. -/
abbrev Call := Sigma Answer

/-- A job is handed over. -/
def handed (j : Job) (r : Option (Except DispatchError Unit)) : Call := ⟨.dispatch j, r⟩

/-- The job of a call. -/
def Call.job (x : Call) : Job :=
  match x.1 with
  | .dispatch j => j

/-- The answer to a request whose job was handed over. -/
def verdict (j : Job) (r : Option (Except DispatchError Unit)) : Response :=
  match handedOver r with
  | .ok () => accepted j
  | .error e => dispatchRefusal e

/-- The ways in which a delivery is answered. -/
inductive Course (config : Config) (hasDispatcher : Bool) (delivery : Delivery) (r : Request) :
    List Call → Response → Prop
  | method (h : r.method ≠ "POST") : Course config hasDispatcher delivery r [] methodRefusal
  | body {response : Response} (hmethod : r.method = "POST") (h : bodyOf config r.body = .error response) :
      Course config hasDispatcher delivery r [] response
  | event {bytes : Bytes} {response : Response} (hmethod : r.method = "POST")
      (hbody : bodyOf config r.body = .ok bytes) (h : jobOf delivery bytes = .error response) :
      Course config hasDispatcher delivery r [] response
  | dispatcher {bytes : Bytes} {j : Job} (hmethod : r.method = "POST")
      (hbody : bodyOf config r.body = .ok bytes) (hjob : jobOf delivery bytes = .ok j)
      (h : hasDispatcher = false) : Course config hasDispatcher delivery r [] noDispatcher
  | dispatch {bytes : Bytes} {j : Job} (hmethod : r.method = "POST")
      (hbody : bodyOf config r.body = .ok bytes) (hjob : jobOf delivery bytes = .ok j)
      (h : hasDispatcher = true) (answer : Option (Except DispatchError Unit)) :
      Course config hasDispatcher delivery r [handed j answer] (verdict j answer)

variable {config : Config} {hasDispatcher : Bool} {delivery : Delivery} {r : Request} {log : List Call}
  {response : Response}

/-- A delivery is answered in these ways, and in no others. -/
theorem trace_receive_iff : Trace (receive config hasDispatcher delivery r.method r.body) log response ↔
    Course config hasDispatcher delivery r log response := by
  constructor
  · intro h
    unfold receive at h
    split at h
    · rename_i hmethod
      obtain ⟨rfl, rfl⟩ := trace_done_iff.1 h
      exact .method hmethod
    · rename_i hmethod
      replace hmethod : r.method = "POST" := not_not.1 hmethod
      split at h
      · rename_i hbody
        obtain ⟨rfl, rfl⟩ := trace_done_iff.1 h
        exact .body hmethod hbody
      · rename_i hbody
        split at h
        · rename_i hjob
          obtain ⟨rfl, rfl⟩ := trace_done_iff.1 h
          exact .event hmethod hbody hjob
        · rename_i hjob
          split at h
          · rename_i hnone
            obtain ⟨rfl, rfl⟩ := trace_done_iff.1 h
            exact .dispatcher hmethod hbody hjob (by simpa using hnone)
          · rename_i hsome
            obtain ⟨answer, rest, rfl, hdone⟩ := trace_ask_iff.1 h
            obtain ⟨rfl, rfl⟩ := trace_done_iff.1 hdone
            exact .dispatch hmethod hbody hjob (by simpa using hsome) answer
  · intro h
    unfold receive
    cases h with
    | method h => simp [h]
    | body hmethod h => simp [hmethod, h]
    | event hmethod hbody h => simp [hmethod, hbody, h]
    | dispatcher hmethod hbody hjob h => simp [hmethod, hbody, hjob, h]
    | dispatch hmethod hbody hjob h answer =>
      simp only [hmethod, hbody, hjob, h, ne_eq, not_true, if_false, Bool.not_true, Bool.false_eq_true]
      exact trace_ask_iff.2 ⟨answer, [], rfl, .done _⟩

/-! ### Checks -/

/-- The checks that a delivery goes through. -/
inductive Check
  | method
  | body
  | event
  | dispatcher
  | dispatch
  deriving DecidableEq

namespace Check

/-- The order of the checks. -/
def order : List Check := [method, body, event, dispatcher, dispatch]

/-- The checks in front of another. -/
def before (c : Check) : List Check := order.takeWhile (· ≠ c)

theorem eq_or_before (c d : Check) : c = d ∨ c ∈ d.before ∨ d ∈ c.before := by
  cases c <;> cases d <;> decide

section

variable {P : Check → Prop}

theorem forall_before_method : ∀ c ∈ before method, P c := by
  simp [before, order]

theorem forall_before_body : (∀ c ∈ before body, P c) ↔ P method := by
  simp [before, order]

theorem forall_before_event : (∀ c ∈ before event, P c) ↔ P method ∧ P body := by
  simp [before, order]

theorem forall_before_dispatcher : (∀ c ∈ before dispatcher, P c) ↔ P method ∧ P body ∧ P event := by
  simp [before, order]

theorem forall_before_dispatch :
    (∀ c ∈ before dispatch, P c) ↔ P method ∧ P body ∧ P event ∧ P dispatcher := by
  simp [before, order]

theorem not_dispatch_before (c : Check) : dispatch ∉ c.before := by
  cases c <;> decide

end

end Check

/-- The request has a body that can be read and is not too long. -/
def Request.Carries (config : Config) (r : Request) (bytes : Bytes) : Prop :=
  r.body = .received bytes ∧ bytes.length ≤ config.maxBodyBytes

/-- A check fails, with the status of the answer that it then has. -/
inductive Fails (config : Config) (hasDispatcher : Bool) (delivery : Delivery) (r : Request) (log : List Call) :
    Check → Nat → Prop
  | method (h : r.method ≠ "POST") : Fails config hasDispatcher delivery r log .method 405
  | broken {reason : String} (h : r.body = .broken reason) : Fails config hasDispatcher delivery r log .body 400
  | tooLong {bytes : Bytes} (hbody : r.body = .received bytes) (h : config.maxBodyBytes < bytes.length) :
      Fails config hasDispatcher delivery r log .body 413
  | event {bytes : Bytes} (hbody : r.Carries config bytes) (h : ∀ j : Job, ¬ j.IsFrom bytes delivery) :
      Fails config hasDispatcher delivery r log .event 400
  | dispatcher (h : hasDispatcher = false) : Fails config hasDispatcher delivery r log .dispatcher 503
  | sink {j : Job} {e : SinkError} (h : log = [handed j (some (.error (.sink e)))]) :
      Fails config hasDispatcher delivery r log .dispatch 500
  | late {j : Job} (h : log = [handed j none]) : Fails config hasDispatcher delivery r log .dispatch 503
  | refused {j : Job} {e : DispatchError} (h : log = [handed j (some (.error e))])
      (hsink : ∀ e', e ≠ .sink e') : Fails config hasDispatcher delivery r log .dispatch 503

/-- The first check that fails. -/
def FailsFirst (config : Config) (hasDispatcher : Bool) (delivery : Delivery) (r : Request) (log : List Call)
    (c : Check) (status : Nat) : Prop :=
  Fails config hasDispatcher delivery r log c status ∧
    ∀ d ∈ c.before, ∀ status', ¬ Fails config hasDispatcher delivery r log d status'

/-- The request asks for a job to be handed over. -/
def Offers (config : Config) (hasDispatcher : Bool) (delivery : Delivery) (r : Request) (j : Job) : Prop :=
  r.method = "POST" ∧ (∃ bytes, r.Carries config bytes ∧ j.IsFrom bytes delivery) ∧ hasDispatcher = true

theorem bodyOf_eq_ok_iff {bytes : Bytes} : bodyOf config r.body = .ok bytes ↔ r.Carries config bytes := by
  unfold Request.Carries
  cases r.body with
  | broken reason => simp [bodyOf]
  | received bs =>
    simp only [bodyOf]
    split
    · rename_i hlong
      refine iff_of_false nofun ?_
      rintro ⟨hbytes, hshort⟩
      cases hbytes
      omega
    · rename_i hshort
      constructor
      · rintro ⟨⟩
        exact ⟨rfl, by omega⟩
      · rintro ⟨hbytes, -⟩
        cases hbytes
        rfl

theorem fails_of_bodyOf (h : bodyOf config r.body = .error response) :
    Fails config hasDispatcher delivery r log .body response.status := by
  cases hbody : r.body with
  | broken reason =>
    rw [hbody] at h
    cases h
    exact .broken hbody
  | received bytes =>
    rw [hbody, bodyOf] at h
    split at h
    · rename_i hlong
      cases h
      exact .tooLong hbody hlong
    · cases h

theorem jobOf_eq_ok_iff {bytes : Bytes} {j : Job} : jobOf delivery bytes = .ok j ↔ j.IsFrom bytes delivery := by
  unfold jobOf Job.IsFrom
  cases SessionEvent.decode bytes with
  | error e => simp
  | ok event =>
    cases hjob : Job.ofDelivery event bytes delivery.id delivery.receivedAt <;> simp [Except.mapError, hjob]

theorem status_of_jobOf {bytes : Bytes} (h : jobOf delivery bytes = .error response) : response.status = 400 := by
  unfold jobOf at h
  split at h
  · cases h
    rfl
  · rename_i event _
    cases hjob : Job.ofDelivery event bytes delivery.id delivery.receivedAt with
    | error e =>
      rw [hjob] at h
      cases h
      rfl
    | ok j =>
      rw [hjob] at h
      cases h

/-! ### The first check that fails -/

theorem Fails.status_unique {c : Check} {status status' : Nat}
    (h : Fails config hasDispatcher delivery r log c status)
    (h' : Fails config hasDispatcher delivery r log c status') : status = status' := by
  cases h with
  | method _ | event _ _ | dispatcher _ =>
    cases h'
    rfl
  | broken h =>
    cases h' with
    | broken _ => rfl
    | tooLong h' _ => cases h.symm.trans h'
  | tooLong h _ =>
    cases h' with
    | tooLong _ _ => rfl
    | broken h' => cases h.symm.trans h'
  | sink h =>
    cases h' with
    | sink _ => rfl
    | late h' => cases h.symm.trans h'
    | refused h' hsink =>
      cases h.symm.trans h'
      exact absurd rfl (hsink _)
  | late h =>
    cases h' with
    | sink h' => cases h.symm.trans h'
    | late _ | refused _ _ => rfl
  | refused h hsink =>
    cases h' with
    | sink h' =>
      cases h.symm.trans h'
      exact absurd rfl (hsink _)
    | late _ | refused _ _ => rfl

/-- There is one first check that fails. -/
theorem FailsFirst.unique {c c' : Check} {status status' : Nat}
    (h : FailsFirst config hasDispatcher delivery r log c status)
    (h' : FailsFirst config hasDispatcher delivery r log c' status') : c = c' ∧ status = status' := by
  rcases Check.eq_or_before c c' with rfl | hbefore | hbefore
  · exact ⟨rfl, h.1.status_unique h'.1⟩
  · exact absurd h.1 (h'.2 c hbefore status)
  · exact absurd h'.1 (h.2 c' hbefore status')

theorem not_fails_method {status : Nat} (h : r.method = "POST") :
    ¬ Fails config hasDispatcher delivery r log .method status := by
  rintro ⟨⟩
  contradiction

theorem not_fails_body {bytes : Bytes} {status : Nat} (h : r.Carries config bytes) :
    ¬ Fails config hasDispatcher delivery r log .body status := by
  intro hfails
  cases hfails with
  | broken h' => cases h.1.symm.trans h'
  | tooLong h' hlong =>
    cases h.1.symm.trans h'
    exact absurd h.2 (by omega)

theorem not_fails_event {bytes : Bytes} {j : Job} {status : Nat} (h : r.Carries config bytes)
    (hfrom : j.IsFrom bytes delivery) : ¬ Fails config hasDispatcher delivery r log .event status := by
  intro hfails
  cases hfails with
  | event h' hnone =>
    cases h.1.symm.trans h'.1
    exact hnone j hfrom

theorem not_fails_dispatcher {status : Nat} (h : hasDispatcher = true) :
    ¬ Fails config hasDispatcher delivery r log .dispatcher status := by
  intro hfails
  cases hfails with
  | dispatcher hnone =>
    rw [h] at hnone
    cases hnone

/-- A dispatcher that takes a job does not fail. -/
theorem not_fails_dispatch (j : Job) {status : Nat} :
    ¬ Fails config hasDispatcher delivery r [handed j (some (.ok ()))] .dispatch status := by
  intro hfails
  cases hfails with
  | sink h | late h | refused h _ => cases h

/-- A dispatcher that does not take a job fails. -/
theorem fails_of_error (j : Job) (e : DispatchError) :
    ∃ status, Fails config hasDispatcher delivery r [handed j (some (.error e))] .dispatch status ∧
      (dispatchRefusal e).status = status := by
  cases e with
  | sink e => exact ⟨500, .sink rfl, rfl⟩
  | queueFull | closed | cancelled | timedOut => exact ⟨503, .refused rfl (by simp), rfl⟩

/-! ### What a course comes to -/

theorem status_methodRefusal : methodRefusal.status = 405 := rfl

theorem allow_methodRefusal : methodRefusal.allow = some "POST" := rfl

theorem status_noDispatcher : noDispatcher.status = 503 := rfl

/-- A job is handed over just when the request asks for it. -/
theorem Course.offers_iff (h : Course config hasDispatcher delivery r log response) (j : Job) :
    j ∈ log.map Call.job ↔ Offers config hasDispatcher delivery r j := by
  -- a request that is turned away hands nothing over, so all that is left is why it does not ask for it
  cases h with
  | method h => exact iff_of_false nofun fun hoffers => h hoffers.1
  | body hmethod h =>
    refine iff_of_false nofun ?_
    rintro ⟨-, ⟨bytes, hbody, -⟩, -⟩
    rw [bodyOf_eq_ok_iff.2 hbody] at h
    cases h
  | event hmethod hbody h =>
    refine iff_of_false nofun ?_
    rintro ⟨-, ⟨bytes, hcarries, hfrom⟩, -⟩
    cases hbody.symm.trans (bodyOf_eq_ok_iff.2 hcarries)
    rw [jobOf_eq_ok_iff.2 hfrom] at h
    cases h
  | dispatcher hmethod hbody hjob h =>
    refine iff_of_false nofun fun hoffers => ?_
    rw [h] at hoffers
    cases hoffers.2.2
  | @dispatch bytes j' hmethod hbody hjob h answer =>
    have hlog : j ∈ [handed j' answer].map Call.job ↔ j = j' := List.mem_singleton
    rw [hlog]
    constructor
    · rintro rfl
      exact ⟨hmethod, ⟨bytes, bodyOf_eq_ok_iff.1 hbody, jobOf_eq_ok_iff.1 hjob⟩, h⟩
    · rintro ⟨-, ⟨bytes', hcarries, hfrom⟩, -⟩
      cases hbody.symm.trans (bodyOf_eq_ok_iff.2 hcarries)
      cases hjob.symm.trans (jobOf_eq_ok_iff.2 hfrom)
      rfl

/-- Either the dispatcher takes the job, and no check fails; or the first check that fails decides. -/
theorem Course.decided (h : Course config hasDispatcher delivery r log response) :
    (∃ j, log = [handed j (some (.ok ()))] ∧ response = accepted j ∧
      ∀ c status, ¬ Fails config hasDispatcher delivery r log c status) ∨
    ((∀ j, log ≠ [handed j (some (.ok ()))]) ∧
      ∃ c status, FailsFirst config hasDispatcher delivery r log c status ∧ response.status = status ∧
        (c = .method → response.allow = some "POST")) := by
  have hnil : ∀ j, ([] : List Call) ≠ [handed j (some (.ok ()))] := fun _ => (List.cons_ne_nil _ _).symm
  cases h with
  | method h =>
    refine .inr ⟨hnil, .method, 405, ⟨.method h, ?_⟩, status_methodRefusal, fun _ => allow_methodRefusal⟩
    exact Check.forall_before_method
  | body hmethod h =>
    refine .inr ⟨hnil, .body, _, ⟨fails_of_bodyOf h, ?_⟩, rfl, nofun⟩
    exact Check.forall_before_body.2 fun _ => not_fails_method hmethod
  | event hmethod hbody h =>
    have hcarries := bodyOf_eq_ok_iff.1 hbody
    have hnone : ∀ j : Job, ¬ j.IsFrom _ delivery := fun j hfrom => by
      rw [jobOf_eq_ok_iff.2 hfrom] at h
      cases h
    refine .inr ⟨hnil, .event, 400, ⟨.event hcarries hnone, ?_⟩, status_of_jobOf h, nofun⟩
    exact Check.forall_before_event.2 ⟨fun _ => not_fails_method hmethod, fun _ => not_fails_body hcarries⟩
  | dispatcher hmethod hbody hjob h =>
    refine .inr ⟨hnil, .dispatcher, 503, ⟨.dispatcher h, ?_⟩, status_noDispatcher, nofun⟩
    exact Check.forall_before_dispatcher.2 ⟨fun _ => not_fails_method hmethod,
      fun _ => not_fails_body (bodyOf_eq_ok_iff.1 hbody),
      fun _ => not_fails_event (bodyOf_eq_ok_iff.1 hbody) (jobOf_eq_ok_iff.1 hjob)⟩
  | @dispatch bytes j hmethod hbody hjob h answer =>
    have hpassed : ∀ c ∈ Check.before .dispatch, ∀ status,
        ¬ Fails config hasDispatcher delivery r [handed j answer] c status :=
      Check.forall_before_dispatch.2 ⟨fun _ => not_fails_method hmethod,
        fun _ => not_fails_body (bodyOf_eq_ok_iff.1 hbody),
        fun _ => not_fails_event (bodyOf_eq_ok_iff.1 hbody) (jobOf_eq_ok_iff.1 hjob),
        fun _ => not_fails_dispatcher h⟩
    match answer with
    | some (.ok ()) =>
      refine .inl ⟨j, rfl, rfl, fun c status => ?_⟩
      rcases Check.eq_or_before c .dispatch with rfl | hc | hc
      · exact not_fails_dispatch j
      · exact hpassed c hc status
      · exact absurd hc (Check.not_dispatch_before c)
    | none =>
      refine .inr ⟨(fun _ hlog => by cases hlog), .dispatch, 503, ⟨.late rfl, hpassed⟩, rfl, nofun⟩
    | some (.error e) =>
      obtain ⟨status, hfails, hstatus⟩ := fails_of_error j e
      refine .inr ⟨(fun _ hlog => by cases hlog), .dispatch, status, ⟨hfails, hpassed⟩, hstatus, nofun⟩

/-! ### Paths -/

namespace Route

/-- A pattern in which no character stands for others stands for itself. -/
theorem accepts_ofChars_iff {cs : List Char} (hsegment : ':' ∉ cs) (hrest : '*' ∉ cs) (path : List Char) :
    (ofChars false cs).accepts path = true ↔ path = cs := by
  induction cs generalizing path with
  | nil => simp [ofChars, accepts]
  | cons c cs ih =>
    simp only [List.mem_cons, not_or] at hsegment hrest
    have hchar : ofChars false (c :: cs) = .char c :: ofChars false cs := by
      simp [ofChars, Ne.symm hsegment.1, Ne.symm hrest.1]
    rw [hchar]
    cases path with
    | nil => simp [accepts]
    | cons d path =>
      simp only [accepts, Bool.and_eq_true, decide_eq_true_eq, ih hsegment.2 hrest.2, List.cons.injEq]
      rw [eq_comm (a := c)]

end Route

/-- On a path that is no pattern all requests are deliveries, but for those about the health of the service. -/
theorem destination_eq_deliveries_iff {config : Config} (hsegment : ':' ∉ config.path.toList)
    (hrest : '*' ∉ config.path.toList) (r : Request) : destination config r = .deliveries ↔
      pathOf r.target = config.path ∧ ¬ (config.path = healthPath ∧ isHealthMethod r.method = true) := by
  have haccepts : (Route.ofPattern config.path).accepts (pathOf r.target).toList = true ↔
      pathOf r.target = config.path :=
    (Route.accepts_ofChars_iff hsegment hrest _).trans String.toList_inj
  simp only [destination, isAboutHealth, haccepts]
  by_cases hpath : pathOf r.target = config.path
  · by_cases hhealth : config.path = healthPath
    · cases hmethod : isHealthMethod r.method <;> simp [hpath, hhealth]
    · simp [hpath, hhealth]
  · simp only [hpath, if_false, false_and, iff_false]
    split <;> simp

/-! ### Requests -/

/-- How a request on the path for deliveries is answered. -/
structure Answers (config : Config) (hasDispatcher : Bool) (delivery : Delivery) (r : Request) (log : List Call)
    (response : Response) : Prop where
  once : log.length ≤ 1
  offers_iff (j : Job) : j ∈ log.map Call.job ↔ Offers config hasDispatcher delivery r j
  /-- Nothing but a dispatcher that takes the job in time is good news, and then the answer names the job. -/
  accepted_iff : response.status = 202 ↔ ∃ j, log = [handed j (some (.ok ()))]
  names (j : Job) (h : log = [handed j (some (.ok ()))]) :
    response.body = object [member "status" (quote "accepted"), member "jobId" (quote j.id)]
  /-- Otherwise there is a first check that fails, and it decides. -/
  fails (h : response.status ≠ 202) : ∃ c status, FailsFirst config hasDispatcher delivery r log c status
  decides (c : Check) (status : Nat) (h : FailsFirst config hasDispatcher delivery r log c status) :
    response.status = status ∧ (c = .method → response.allow = some "POST")

theorem Course.length_le (h : Course config hasDispatcher delivery r log response) : log.length ≤ 1 := by
  cases h <;> simp

theorem Fails.status_ne {c : Check} {status : Nat} (h : Fails config hasDispatcher delivery r log c status) :
    status ≠ 202 := by
  cases h <;> decide

theorem Course.answers (h : Course config hasDispatcher delivery r log response) :
    Answers config hasDispatcher delivery r log response := by
  rcases h.decided with ⟨j, rfl, rfl, hpassed⟩ | ⟨hlog, c, status, hfirst, hstatus, hallow⟩
  · refine ⟨h.length_le, h.offers_iff, iff_of_true rfl ⟨j, rfl⟩, ?_, fun hne => absurd rfl hne, ?_⟩
    · rintro j' ⟨⟩
      rfl
    · exact fun c status hfirst => absurd hfirst.1 (hpassed c status)
  · have hne : response.status ≠ 202 := hstatus ▸ hfirst.1.status_ne
    refine ⟨h.length_le, h.offers_iff, iff_of_false hne ?_, ?_, fun _ => ⟨c, status, hfirst⟩, ?_⟩
    · exact fun ⟨j, hj⟩ => hlog j hj
    · exact fun j hj => absurd hj (hlog j)
    · intro c' status' hfirst'
      obtain ⟨rfl, rfl⟩ := hfirst.unique hfirst'
      exact ⟨hstatus, hallow⟩

variable {now : Instant}

/-- A request that is no delivery hands nothing over. -/
theorem respond_cases (h : Trace (respond config hasDispatcher now r) log response) :
    (log = [] ∧ destination config r ≠ .deliveries) ∨
      (Course config hasDispatcher (.of (Delivery.idOf r.headers) now) r log response ∧
        destination config r = .deliveries) := by
  unfold respond at h
  cases hdestination : destination config r with
  | health | nowhere =>
    rw [hdestination] at h
    exact .inl ⟨(trace_done_iff.1 h).1, by simp⟩
  | deliveries =>
    rw [hdestination] at h
    exact .inr ⟨trace_receive_iff.1 h, rfl⟩

/-- Every job that is handed over is made of the body of the request. -/
theorem exists_isFrom_of_handed (h : Trace (respond config hasDispatcher now r) log response) {j : Job}
    (hj : j ∈ log.map Call.job) :
    ∃ bytes, r.body = .received bytes ∧ j.IsFrom bytes (.of (Delivery.idOf r.headers) now) := by
  rcases respond_cases h with ⟨rfl, -⟩ | ⟨hcourse, -⟩
  · cases hj
  · obtain ⟨-, ⟨bytes, hcarries, hfrom⟩, -⟩ := (hcourse.offers_iff j).1 hj
    exact ⟨bytes, hcarries.1, hfrom⟩

/-- **A request on the path for deliveries is answered by the first check that fails, and hands over one job when
none does.** And whatever two requests with the same body hand over differs in the delivery at most. -/
theorem respond_answers (hdestination : destination config r = .deliveries)
    (h : Trace (respond config hasDispatcher now r) log response) :
    Answers config hasDispatcher (.of (Delivery.idOf r.headers) now) r log response ∧
    ∀ config' hasDispatcher' now' r' log' response',
      Trace (respond config' hasDispatcher' now' r') log' response' → r'.body = r.body →
      ∀ j ∈ log.map Call.job, ∀ j' ∈ log'.map Call.job,
        ∃ id time, j' = { j with deliveryId := id, receivedAt := time } := by
  constructor
  · rcases respond_cases h with ⟨-, helsewhere⟩ | ⟨hcourse, -⟩
    · exact absurd hdestination helsewhere
    · exact hcourse.answers
  · intro config' hasDispatcher' now' r' log' response' h' hbody j hj j' hj'
    obtain ⟨bytes, hbytes, hfrom⟩ := exists_isFrom_of_handed h hj
    obtain ⟨bytes', hbytes', hfrom'⟩ := exists_isFrom_of_handed h' hj'
    cases (hbody ▸ hbytes').symm.trans hbytes
    exact hfrom.eq_with_delivery hfrom'

/-- A delivery of a new session. -/
def someDelivery : Request where
  method := "POST"
  target := "/linear/webhook?team=a"
  headers := [("X-Linear-Delivery-Id", Bytes.utf8 "d-1")]
  body := .received (Bytes.utf8
    ("\x7b\"action\":\"created\",\"payloadVersion\":1," ++
      "\"agentSession\":\x7b\"id\":\"s\",\"state\":\"pending\"\x7d\x7d"))

theorem respond_answers_someDelivery : ∃ log response, destination {} someDelivery = .deliveries ∧
    Trace (respond {} true .epoch someDelivery) log response ∧
      Answers {} true (.of (Delivery.idOf someDelivery.headers) .epoch) someDelivery log response ∧
        response.status = 202 := by
  let answer : (q : Question) → Answer q := fun _ => (some (.ok ()) : Option (Except DispatchError Unit))
  have hdestination : destination {} someDelivery = .deliveries :=
    (destination_eq_deliveries_iff (by decide) (by decide) _).2 (by decide +kernel)
  have htrace := trace_eval answer (respond {} true .epoch someDelivery)
  exact ⟨_, _, hdestination, htrace, (respond_answers hdestination htrace).1, by decide +kernel⟩

end AgentRelay.Webhook
