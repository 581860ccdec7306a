import AgentRelay.Job.Line
import AgentRelay.Proofs.Event.Written
import AgentRelay.Proofs.Json.Extent

/-!
# Queue lines are read back

A job that is written as a queue line is read back as it was, its payload to the letter. The job must
be of the current version, have a name and hold values that are the ones their names stand for; these
are the jobs that are made from deliveries and the ones that are read from queue lines.

* `IsKept` says what a job needs, `isKept_of_ofDelivery` and `isKept_of_ofLine` who has it.
* `reads_doc`: the written job is read back, whatever another writer adds to it.
* `line_round_trip` is the round trip.
-/

namespace AgentRelay

open Json

namespace Job

/-- What a job needs to be read back from its line. -/
structure IsKept (j : Job) : Prop where
  version : j.contractVersion = currentVersion
  hasName : j.isNameless = false
  event : j.event.IsNamed

/-! ### The written job -/

/-- A written version is read. -/
theorem reads_contractVersion (v : UInt32) :
    Reads (integer "u32" 0 (UInt32.size - 1)) (intText v.toNat) v.toNat := by
  have hlt : v.toNat < UInt32.size := v.toNat_lt_size
  have hsize : UInt32.size = 4294967296 := rfl
  have hsize' : UInt64.size = 18446744073709551616 := rfl
  refine reads_integer "u32" ⟨by omega, by omega⟩ (by omega) (by omega)

/-- The written job as a document. Its payload is a single value, whatever objects it holds. -/
def doc (j : Job) : Doc :=
  .object (namesOf fields) ([("id", .value (quote j.id)),
      ("contractVersion", .value (intText j.contractVersion.toNat)),
      ("idempotencyKey", .value (quote j.idempotencyKey)), ("sessionId", .value (quote j.sessionId)),
      ("sessionStep", .value (quote j.sessionStep))] ++
    Doc.optional "deliveryId" (fun s => .value (quote s)) j.deliveryId ++
    [("receivedAt", .value j.receivedAt.json), ("event", j.event.doc),
      ("payload", .value j.payload.json)])

@[simp] theorem text_doc (j : Job) : j.doc.text = j.json := by
  simp [doc, json, Doc.text, Doc.pieces]

theorem reads_doc {j : Job} (hj : j.event.IsNamed) : ReadsDoc reader j.doc j := by
  have h := Fills.nil fields {}
  have h := h.field "id" rfl (reads_string j.id).doc (by simp)
  have h := h.field "contractVersion" rfl (reads_contractVersion j.contractVersion).doc (by simp)
  rw [Int.toNat_natCast, Nat.toUInt32_eq, UInt32.ofNat_toNat] at h
  have h := h.field "idempotencyKey" rfl (reads_string j.idempotencyKey).doc (by simp)
  have h := h.field "sessionId" rfl (reads_string j.sessionId).doc (by simp)
  have h := h.field "sessionStep" rfl (reads_string j.sessionStep).doc (by simp)
  have h := h.optional "deliveryId" (a := j.deliveryId) rfl
    (fun s _ => ⟨(reads_string s).doc, (opens_quote s).doc⟩) (by simp) rfl
  have h := h.field "receivedAt" rfl (Instant.reads_json j.receivedAt).doc (by simp)
  have h := h.field "event" rfl (SessionEvent.reads_doc hj) (by simp)
  have h := h.field "payload" rfl (reads_payload j.payload).doc (by simp)
  simpa [reader, doc] using h.reads "Job"

theorem reads_json {j : Job} (hj : j.event.IsNamed) : Reads reader j.json j := by
  rw [← text_doc]
  exact (reads_doc hj).reads

/-- Trimming takes the line feed off an object and nothing else. -/
theorem trimAscii_object (pieces : List Bytes) :
    Bytes.trimAscii (object pieces ++ [10]) = object pieces := by
  simp [Bytes.trimAscii, Bytes.dropEndWhile, object, Bytes.isAsciiBlank]

theorem trimAscii_line (j : Job) : Bytes.trimAscii j.line = j.json := trimAscii_object _

@[simp] theorem getLast?_line (j : Job) : j.line.getLast? = some 10 := by simp [line]

@[simp] theorem isEmpty_trimAscii_line (j : Job) : (Bytes.trimAscii j.line).isEmpty = false := by
  rw [trimAscii_line]
  rfl

/-- A line is read by its version and its names. -/
theorem ofLine_line {j : Job} (hj : j.event.IsNamed) :
    ofLine j.line =
      if j.isNameless then .error .missingIdentifiers
      else if j.contractVersion ≠ currentVersion then .error (.unsupportedVersion j.contractVersion)
      else .ok j := by
  rw [ofLine, trimAscii_line, readAll_of_reads (reads_json hj)]

theorem IsKept.ofLine_line {j : Job} (hj : j.IsKept) : ofLine j.line = .ok j := by
  rw [Job.ofLine_line hj.event, if_neg (by simp [hj.hasName]), if_neg (by simp [hj.version])]

/-! ### Jobs that are kept -/

/-- What is read is named. -/
theorem gives_isNamed : Gives reader fun j => j.event.IsNamed := by
  refine gives_record "Job" (P := fun j : Job => j.event.IsNamed)
    SessionEvent.isNamed_default ?_
  simp only [fields, List.forall_mem_cons]
  refine ⟨?_, ?_, ?_, ?_, ?_, ?_, ?_, ?_, ?_, by simp⟩
  rotate_left 7
  · exact keeps_field SessionEvent.gives_isNamed fun _ _ he _ => he
  all_goals exact keeps_other fun _ _ h => h

/-- A job that was read from a line is kept. -/
theorem isKept_of_ofLine {line : Bytes} {j : Job} (h : ofLine line = .ok j) : j.IsKept := by
  unfold ofLine at h
  split at h
  · cases h
  · rename_i job hjob
    split_ifs at h with hname hversion
    cases h
    exact ⟨not_not.1 hversion, by simpa using hname, gives_isNamed.readAll hjob⟩

/-- An idempotency key is never blank. -/
theorem isBlankText_key (step : String) : Text.isBlankText (Identity.key step) = false := by
  have hfirst : Text.isBlank 'a' = false := by decide
  have hspace : Identity.keySpace.toList = 'a' :: "gent-session/v1".toList := by decide
  simp [Text.isBlankText, Identity.key, hspace, hfirst]

/-- A job that was made from a delivery is kept. -/
theorem isKept_of_ofDelivery {event : SessionEvent} {body : Bytes} {deliveryId : Option String}
    {receivedAt : Instant} {j : Job} (he : event.IsNamed)
    (h : ofDelivery event body deliveryId receivedAt = .ok j) : j.IsKept := by
  unfold ofDelivery at h
  split at h
  · cases h
  · cases h
    exact ⟨rfl, by simp [isNameless, isBlankText_key], he⟩

theorem exists_of_isOk {ε α : Type} {x : Except ε α} (h : x.isOk = true) : ∃ a, x = .ok a := by
  cases x with
  | error e => cases h
  | ok a => exact ⟨a, rfl⟩

theorem exists_of_any {ε α : Type} {x : Except ε α} {p : α → Bool} (h : x.toOption.any p = true) :
    ∃ a, x = .ok a ∧ p a = true := by
  cases x with
  | error e => cases h
  | ok a => exact ⟨a, rfl, h⟩

/-- **Queue lines lose nothing.** A job is read back from its line just when it is kept, and so are
all jobs that are made from deliveries or read from lines. -/
theorem line_round_trip :
    (∀ j : Job, ofLine j.line = .ok j ↔
      j.contractVersion = currentVersion ∧ j.isNameless = false ∧ j.event.IsNamed) ∧
    (∀ event body deliveryId receivedAt j, event.IsNamed →
      ofDelivery event body deliveryId receivedAt = .ok j → ofLine j.line = .ok j) ∧
    (∀ line j, ofLine line = .ok j → ofLine j.line = .ok j) := by
  refine ⟨fun j => ⟨fun h => ?_, fun h => ?_⟩, fun _ _ _ _ j he h => ?_, fun _ j h => ?_⟩
  · obtain ⟨hversion, hname, hevent⟩ := isKept_of_ofLine h
    exact ⟨hversion, hname, hevent⟩
  · obtain ⟨hversion, hname, hevent⟩ := h
    exact IsKept.ofLine_line ⟨hversion, hname, hevent⟩
  · exact (isKept_of_ofDelivery he h).ofLine_line
  · exact (isKept_of_ofLine h).ofLine_line

/-- A job from a leap second of the year 12345, with quotes and line breaks in its names, an action
that nothing here knows, and a body whose number no double can hold. -/
def farFuture : Job where
  id := "evt \"1\"\r\n"
  contractVersion := 1
  deliveryId := some "\t"
  receivedAt := ⟨⟨12345, 12, 31, by decide, by decide, by decide⟩, 1439, 60, 500, by decide, by decide,
    by decide⟩
  event := { action := .unknown "archived", previousComments := [{}, { body := "ü\x7f" }] }
  payload := ⟨"\x7b\"n\":1e400\x7d", by decide +kernel⟩

theorem line_round_trip_farFuture :
    (farFuture.contractVersion = currentVersion ∧ farFuture.isNameless = false ∧
      farFuture.event.IsNamed ∧ ofLine farFuture.line = .ok farFuture) ∧
    (∃ j, ofDelivery farFuture.event [123, 10, 125] none .epoch = .ok j ∧ ofLine j.line = .ok j) := by
  have hname : farFuture.isNameless = false := by decide +kernel
  have hevent : farFuture.event.IsNamed :=
    ⟨by unfold WireName.IsNamed; decide, by unfold Session.IsNamed WireName.IsNamed; decide,
      fun a ha => by cases ha⟩
  have hread := (line_round_trip.1 farFuture).2 ⟨rfl, hname, hevent⟩
  obtain ⟨j, hj⟩ : ∃ j, ofDelivery farFuture.event [123, 10, 125] none .epoch = .ok j :=
    exists_of_isOk (by decide +kernel)
  exact ⟨⟨rfl, hname, hevent, hread⟩, j, hj, line_round_trip.2.1 _ _ _ _ j hevent hj⟩

end Job
end AgentRelay
