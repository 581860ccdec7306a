import AgentRelay.Proofs.Job.Body
import AgentRelay.Proofs.Queue.Append
import AgentRelay.Proofs.Queue.Drain
import AgentRelay.Webhook.Receive

/-!
# From a delivery to the processor

What accepted deliveries say reaches the processor: every job that a delivery makes is kept on a line of
its own, and a worker that nothing disturbs hands over the first job of every idempotency key, in the
order in which the deliveries were accepted.

* `Job.IsFrom` is the job of a delivery, `Job.IsFrom.says` and `Job.IsFrom.isKept` are its properties.
* `Worker.hands_over_deliveries` is the way from the bodies to the processor.
-/

namespace AgentRelay

open Json

namespace Job

/-- The job that an accepted body makes with what is known of its delivery. -/
def IsFrom (j : Job) (body : Bytes) (delivery : Delivery) : Prop :=
  ∃ e, SessionEvent.decode body = .ok e ∧
    ofDelivery e body delivery.id delivery.receivedAt = .ok j

variable {j : Job} {body : Bytes} {delivery : Delivery}

theorem ofDelivery_eq_ok {e : SessionEvent} {id : Option String} {receivedAt : Instant}
    (h : ofDelivery e body id receivedAt = .ok j) :
    j.event = e ∧ Payload.ofBody body = .ok j.payload ∧
      j.idempotencyKey = Identity.key (Identity.step e body) := by
  unfold ofDelivery at h
  split at h
  · cases h
  · rename_i payload hpayload
    cases h
    exact ⟨rfl, hpayload, rfl⟩

theorem exists_isFrom {e : SessionEvent} {payload : Payload} (delivery : Delivery)
    (he : SessionEvent.decode body = .ok e) (hpayload : Payload.ofBody body = .ok payload) :
    ∃ j : Job, j.IsFrom body delivery := by
  have hj : ∃ j, ofDelivery e body delivery.id delivery.receivedAt = .ok j := by
    rw [ofDelivery, hpayload]
    exact ⟨_, rfl⟩
  obtain ⟨j, hj⟩ := hj
  exact ⟨j, e, he, hj⟩

/-- The job of a delivery tells its event, and its body without the white space around it and with a
space for every line break. -/
theorem IsFrom.says (h : j.IsFrom body delivery) :
    SessionEvent.decode body = .ok j.event ∧ j.payload.json = (trimSpace body).map unbroken := by
  obtain ⟨e, he, hj⟩ := h
  obtain ⟨rfl, hpayload, -⟩ := ofDelivery_eq_ok hj
  exact ⟨he, Payload.json_of_ofBody hpayload⟩

/-- It can be kept on a line of its own, under a key that is trimmed. -/
theorem IsFrom.isKept (h : j.IsFrom body delivery) :
    j.IsKept ∧ IsOneLine j.json ∧ j.key = j.idempotencyKey ∧ j.key ≠ "" := by
  obtain ⟨e, he, hj⟩ := h
  obtain ⟨rfl, hpayload, hkey⟩ := ofDelivery_eq_ok hj
  obtain ⟨-, hcheck⟩ := SessionEvent.decode_eq_ok he
  have htrim : j.key = j.idempotencyKey := by rw [key, hkey, Identity.trim_key]
  refine ⟨isKept_of_ofDelivery (SessionEvent.isNamed_of_check hcheck) hj,
    isOneLine_json (Payload.isOneLine_of_ofBody hpayload), htrim, ?_⟩
  rw [htrim, hkey]
  exact Identity.key_ne_empty _

/-- Deliveries of one body have one key, whatever else is known of them. -/
theorem IsFrom.idempotencyKey_eq {k : Job} {other : Delivery} (hj : j.IsFrom body delivery)
    (hk : k.IsFrom body other) : j.idempotencyKey = k.idempotencyKey := by
  obtain ⟨e, he, hj⟩ := hj
  obtain ⟨e', he', hk⟩ := hk
  obtain rfl : e = e' := Except.ok.inj (he.symm.trans he')
  rw [(ofDelivery_eq_ok hj).2.2, (ofDelivery_eq_ok hk).2.2]

/-- And their jobs differ in what is known of the delivery at most. -/
theorem IsFrom.eq_with_delivery {k : Job} {other : Delivery} (hj : j.IsFrom body delivery)
    (hk : k.IsFrom body other) : ∃ id time, k = { j with deliveryId := id, receivedAt := time } := by
  obtain ⟨e, he, hj⟩ := hj
  obtain ⟨e', he', hk⟩ := hk
  obtain rfl : e = e' := Except.ok.inj (he.symm.trans he')
  unfold ofDelivery at hj hk
  cases hpayload : Payload.ofBody body with
  | error fault =>
    rw [hpayload] at hj
    cases hj
  | ok payload =>
    rw [hpayload] at hj hk
    cases hj
    cases hk
    exact ⟨_, _, rfl⟩

theorem isKept_of_forall₂ {deliveries : List (Bytes × Delivery)} {jobs : List Job}
    (h : List.Forall₂ (fun x j => j.IsFrom x.1 x.2) deliveries jobs) :
    ∀ j ∈ jobs, j.IsKept ∧ IsOneLine j.json ∧ j.key = j.idempotencyKey ∧ j.key ≠ "" := by
  induction h with
  | nil => simp
  | cons first _ ih => exact List.forall_mem_cons.2 ⟨first.isKept, ih⟩

end Job

/-- The file that a path leads to is empty, or missing; a missing one does not come to light when the
folder of the path is made. -/
def Disk.HoldsNothing (d : Disk) (path : String) : Prop :=
  d.read path = .ok [] ∨ d.read path = .error .notFound ∧ (d.withParent path).content path = []

namespace Queue

variable {d d' : Disk} {path : String} {jobs : List Job}

/-- A queue file that held nothing holds the lines of the jobs that are kept, or is still missing. -/
theorem appendAll_of_holdsNothing (hd : d.HoldsNothing path)
    (h : appendAll path jobs d = (.ok (), d')) :
    d'.read path = .ok (jobs.flatMap Job.line) ∨
      jobs = [] ∧ d'.read path = .error .notFound := by
  have hcontent : (d.withParent path).content path = [] := by
    rcases hd with hempty | ⟨-, hmissing⟩
    · exact Disk.content_of_read ((d.grows_withParent path).read hempty)
    · exact hmissing
  by_cases hjobs : jobs = []
  · subst hjobs
    obtain rfl : d = d' := (Prod.mk.inj h).2
    exact hd.imp id fun ⟨hmissing, _⟩ => ⟨rfl, hmissing⟩
  · left
    rw [read_appendAll h hjobs, hcontent, List.nil_append]

end Queue

namespace Worker

/-- What one cycle of a new worker makes of the jobs of deliveries in a queue file. -/
structure HandsOver (config : WorkerConfig) (deliveries : List (Bytes × Delivery)) (jobs : List Job)
    (disk : Disk) (n : Nat) (d : Drain) : Prop where
  runs : ((drain n { config, offset := 0 }).run (onDisk quiet)).run disk = (d, disk)
  outcome : d.outcome = some (.ok ())
  /-- It stands behind the last line. -/
  offset : d.worker.offset = (disk.content config.queuePath).length
  jobs_eq : ((drain n { config, offset := 0 }).log (answersOn disk)).filterMap Exchange.job? =
    Job.firstOfEachKey jobs
  /-- Every job tells what its delivery said. -/
  tells : List.Forall₂ (fun x j => SessionEvent.decode x.1 = .ok j.event ∧
    j.payload.json = (trimSpace x.1).map unbroken) deliveries jobs

/-- **Accepted deliveries reach the processor.** When the jobs of deliveries are kept in a queue file
that held nothing, one cycle of a new worker that nothing disturbs ends well behind the last line. It
hands over the first job of every idempotency key in the order of the deliveries, and every job tells
what its delivery said. -/
theorem hands_over_deliveries {deliveries : List (Bytes × Delivery)} {jobs : List Job}
    {config : WorkerConfig} {before disk : Disk} {n : Nat}
    (hjobs : List.Forall₂ (fun x j => j.IsFrom x.1 x.2) deliveries jobs)
    (hbefore : before.HoldsNothing config.queuePath)
    (hkept : Queue.appendAll config.queuePath jobs before = (.ok (), disk)) (hn : jobs.length < n) :
    ∃ d, HandsOver config deliveries jobs disk n d := by
  let cycle : WorkerScript Drain := drain n { config, offset := 0 }
  have htrace := Script.trace_eval (answersOn disk) cycle
  have hlog : ∀ x ∈ cycle.log (answersOn disk), x.2 = answersOn disk x.1 :=
    fun _ => Script.answer_of_mem_log
  have hsays := hjobs.imp fun _ _ h => h.says
  have hruns := run_quiet cycle disk
  refine ⟨cycle.eval (answersOn disk), ?_⟩
  rcases Queue.appendAll_of_holdsNothing hbefore hkept with hread | ⟨rfl, hread⟩
  · obtain ⟨hend, hoffset, hhanded⟩ :=
      drain_lines htrace hn hlog hread (Nat.zero_le _) rfl (Job.isKept_of_forall₂ hjobs)
    rw [Job.unseen_nil] at hhanded
    exact ⟨hruns, hend, by rw [hoffset, Disk.content_of_read hread], hhanded, hsays⟩
  · obtain ⟨hend, hnone⟩ := drain_missing htrace hlog hread
    exact ⟨hruns, by rw [hend]; rfl, by rw [hend, Disk.content_of_read_error hread]; rfl, hnone, hsays⟩

/-- A body with line breaks between its tokens and behind its value. -/
def greeting : Bytes :=
  Bytes.utf8 "\x7b\"payloadVersion\":1,\n\"action\":\"created\",\"agentSession\":\x7b\"state\":\"pending\"\x7d\x7d\r\n"

/-- The same body is delivered twice, and its first job alone is handed over. -/
theorem hands_over_deliveries_twice :
    ∃ j k disk, List.Forall₂ (fun x j => Job.IsFrom j x.1 x.2)
        [(greeting, ⟨some "a", .epoch⟩), (greeting, ⟨none, .epoch⟩)] [j, k] ∧
      Disk.HoldsNothing {} "q" ∧ Queue.appendAll "q" [j, k] {} = (.ok (), disk) ∧
      ((drain 3 { config := { queuePath := "q" }, offset := 0 }).log (answersOn disk)).filterMap
        Exchange.job? = [j] := by
  obtain ⟨e, he⟩ : ∃ e, SessionEvent.decode greeting = .ok e := Job.exists_of_isOk (by decide +kernel)
  obtain ⟨p, hp⟩ : ∃ p, Payload.ofBody greeting = .ok p := Job.exists_of_isOk (by decide +kernel)
  obtain ⟨j, hj⟩ := Job.exists_isFrom ⟨some "a", .epoch⟩ he hp
  obtain ⟨k, hk⟩ := Job.exists_isFrom ⟨none, .epoch⟩ he hp
  have hjobs : List.Forall₂ (fun (x : Bytes × Delivery) (j : Job) => j.IsFrom x.1 x.2)
      [(greeting, ⟨some "a", .epoch⟩), (greeting, ⟨none, .epoch⟩)] [j, k] := .cons hj (.cons hk .nil)
  have hempty : Disk.HoldsNothing {} "q" := .inr ⟨rfl, rfl⟩
  obtain ⟨disk, hkept⟩ : ∃ disk, Queue.appendAll "q" [j, k] {} = (.ok (), disk) := ⟨_, rfl⟩
  let config : WorkerConfig := { queuePath := "q" }
  obtain ⟨d, hhands⟩ := hands_over_deliveries (n := 3) hjobs
    (show Disk.HoldsNothing {} config.queuePath from hempty) hkept (by simp)
  refine ⟨j, k, disk, hjobs, hempty, hkept, hhands.jobs_eq.trans ?_⟩
  simp [Job.firstOfEachKey, hk.idempotencyKey_eq hj]

end Worker
end AgentRelay
