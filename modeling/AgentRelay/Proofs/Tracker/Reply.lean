import AgentRelay.Tracker.Reply
import Mathlib.Tactic.Common

/-!
# What a reply amounts to

A reply is judged by the bytes that are read of it. They are the same however its body is cut into chunks,
and there are some for every reply but one whose connection breaks too early.

* `Reply.body` is what is read of a reply, `Reply.Arrives` says that it can be read.
* `Reply.data_eq_ok_iff`: when a reply has data.
* `judge_of_readable` and `judge_of_not_readable`: what a failing status amounts to.
* `Confirmation.id?_eq_ok_iff`: when an answer confirms an id.
-/

namespace AgentRelay.Tracker

open Json

variable {α : Type} {operation what : String} {r : Reader α} {reply : Reply}

/-! ### The body -/

/-- The bytes of a reply that are read. -/
def Reply.body (reply : Reply) : Bytes := reply.chunks.flatten.take bodyLimit

/-- The connection holds until the body or the limit ends. -/
def Reply.Arrives (reply : Reply) : Prop :=
  reply.broken = none ∨ bodyLimit ≤ reply.chunks.flatten.length

instance (reply : Reply) : Decidable reply.Arrives := inferInstanceAs (Decidable (_ ∨ _))

section Collecting

variable {limit : Nat} {body : Bytes} {chunks : List Bytes}

/-- Below the limit, chunks are collected as one piece. -/
theorem collect_of_holds {broken : Option TransportFault} (hbody : body.length < limit)
    (h : broken = none ∨ limit ≤ (body ++ chunks.flatten).length) :
    collect limit broken body chunks = .ok ((body ++ chunks.flatten).take limit) := by
  induction chunks generalizing body with
  | nil =>
    have htake : body.take limit = body := List.take_of_length_le (Nat.le_of_lt hbody)
    obtain rfl | hlimit := h
    · simp [collect, htake]
    · simp at hlimit
      omega
  | cons chunk chunks ih =>
    rw [collect, if_neg (by omega)]
    dsimp only
    have hcat : body ++ (chunk :: chunks).flatten = body ++ chunk ++ chunks.flatten := by simp
    split_ifs with hroom
    · have htake : (body ++ chunk ++ chunks.flatten).take limit =
          body ++ chunk.take (limit - body.length) := by
        rw [List.take_append_of_le_length (by simp; omega), List.take_append,
          List.take_of_length_le (Nat.le_of_lt hbody)]
      rw [hcat, htake]
    · rw [ih (by simp; omega) (hcat ▸ h), hcat]

/-- A connection that breaks below the limit is all that comes of the chunks. -/
theorem collect_of_breaks {fault : TransportFault} (h : (body ++ chunks.flatten).length < limit) :
    collect limit (some fault) body chunks = .error (.broken fault) := by
  induction chunks generalizing body with
  | nil => rfl
  | cons chunk chunks ih =>
    have hcat : body ++ (chunk :: chunks).flatten = body ++ chunk ++ chunks.flatten := by simp
    rw [hcat] at h
    have hlength : body.length + chunk.length ≤ (body ++ chunk ++ chunks.flatten).length := by simp
    rw [collect, if_neg (by omega)]
    dsimp only
    rw [if_neg (by omega), ih h]

end Collecting

theorem Reply.not_arrives_iff : ¬ reply.Arrives ↔
    ∃ fault, reply.broken = some fault ∧ reply.chunks.flatten.length < bodyLimit := by
  rw [Arrives, not_or, Nat.not_le, exists_and_right]
  exact and_congr_left fun _ => Option.ne_none_iff_exists'

theorem Reply.data_of_arrives (h : reply.Arrives) :
    reply.data operation r = judge operation r reply.status reply.body := by
  have hlimit : ([] : Bytes).length < bodyLimit := by decide
  rw [Reply.data, readLimited, collect_of_holds hlimit h]
  rfl

theorem Reply.data_of_breaks {fault : TransportFault} (hbroken : reply.broken = some fault)
    (hshort : reply.chunks.flatten.length < bodyLimit) :
    reply.data operation r = .error (.transport operation fault) := by
  rw [Reply.data, readLimited, hbroken, collect_of_breaks hshort]
  rfl

/-! ### Judging -/

/-- The body is an envelope. -/
def Decodes (r : Reader α) (body : Bytes) (envelope : Envelope α) : Prop :=
  readAll (Envelope.reader r) body = .ok envelope

/-- The body is an envelope with errors. -/
def HasErrors (r : Reader α) (body : Bytes) : Prop :=
  ∃ envelope, Decodes r body envelope ∧ envelope.errors ≠ []

theorem decodeEnvelope_nil (operation : String) (r : Reader α) :
    decodeEnvelope operation r [] = .ok {} := rfl

theorem not_decodes_nil (r : Reader α) (envelope : Envelope α) : ¬ Decodes r [] envelope := nofun

theorem decodeEnvelope_of_ne_nil {body : Bytes} (hbody : body ≠ []) : decodeEnvelope operation r body =
    (readAll (Envelope.reader r) body).mapError (.decode operation) := by
  rw [decodeEnvelope, if_neg (by simpa using hbody)]

/-- There is data when the status is one of success and the body is an envelope without errors. No body
at all is an envelope without data. -/
theorem judge_eq_ok_iff {status : Nat} {body : Bytes} {data : Option α} :
    judge operation r status body = .ok data ↔
      isSuccess status = true ∧ (body = [] ∧ data = none ∨
        ∃ envelope, Decodes r body envelope ∧ envelope.errors = [] ∧ envelope.data = data) := by
  unfold judge
  by_cases hbody : body = []
  · subst hbody
    rw [decodeEnvelope_nil]
    cases isSuccess status <;> simp [not_decodes_nil, eq_comm]
  · rw [decodeEnvelope_of_ne_nil hbody]
    cases hread : readAll (Envelope.reader r) body with
    | error fault => simp [Decodes, hread, hbody, Except.mapError]
    | ok envelope =>
      by_cases hnone : envelope.errors = []
      · cases isSuccess status <;> simp [Decodes, hread, hbody, Except.mapError, hnone]
      · simp [Decodes, hread, hbody, Except.mapError, hnone]

theorem Reply.data_eq_ok_iff {data : Option α} : reply.data operation r = .ok data ↔
    reply.Arrives ∧ isSuccess reply.status = true ∧ (reply.body = [] ∧ data = none ∨
      ∃ envelope, Decodes r reply.body envelope ∧ envelope.errors = [] ∧ envelope.data = data) := by
  by_cases harrives : reply.Arrives
  · simp [Reply.data_of_arrives harrives, judge_eq_ok_iff, harrives]
  · obtain ⟨fault, hbroken, hshort⟩ := Reply.not_arrives_iff.1 harrives
    simp [Reply.data_of_breaks hbroken hshort, harrives]

/-- The body is empty or an envelope. -/
def IsReadable (r : Reader α) (body : Bytes) : Prop := body = [] ∨ ∃ envelope, Decodes r body envelope

theorem not_hasErrors_of_all {body : Bytes}
    (h : (readAll (Envelope.reader r) body).toOption.all fun envelope => envelope.errors.isEmpty) :
    ¬ HasErrors r body := by
  rintro ⟨envelope, hdecodes, herrors⟩
  rw [show readAll (Envelope.reader r) body = _ from hdecodes] at h
  exact herrors (List.isEmpty_iff.1 h)

theorem isReadable_of_isOk {body : Bytes} (h : (readAll (Envelope.reader r) body).isOk = true) :
    IsReadable r body := by
  cases hread : readAll (Envelope.reader r) body with
  | ok envelope => exact .inr ⟨envelope, hread⟩
  | error fault => simp [hread, Except.isOk, Except.toBool] at h

theorem judge_of_readable {status : Nat} {body : Bytes} (hstatus : isSuccess status = false)
    (herrors : ¬ HasErrors r body) (hread : IsReadable r body) :
    judge operation r status body = .error (.status operation status (statusBody status body)) := by
  unfold judge
  obtain rfl | ⟨envelope, hdecodes⟩ := hread
  · simp [decodeEnvelope_nil, hstatus]
  · have hbody : body ≠ [] := by
      rintro rfl
      exact not_decodes_nil r envelope hdecodes
    have hnone : envelope.errors = [] := by
      by_contra hsome
      exact herrors ⟨envelope, hdecodes, hsome⟩
    rw [decodeEnvelope_of_ne_nil hbody, show readAll (Envelope.reader r) body = _ from hdecodes]
    simp [Except.mapError, hnone, hstatus]

theorem judge_of_not_readable {body : Bytes} (operation : String) (status : Nat)
    (hread : ¬ IsReadable r body) :
    ∃ fault, judge operation r status body = .error (.decode operation fault) := by
  have hbody : body ≠ [] := fun h => hread (.inl h)
  unfold judge
  rw [decodeEnvelope_of_ne_nil hbody]
  cases h : readAll (Envelope.reader r) body with
  | ok envelope => exact absurd (.inr ⟨envelope, h⟩) hread
  | error fault => exact ⟨fault, rfl⟩

/-! ### Confirmations -/

/-- An id is confirmed when it was done, to something with an id that is not blank. -/
theorem Confirmation.id?_eq_ok_iff {c : Confirmation} {id : String} : c.id? operation what = .ok id ↔
    c.success = true ∧ ∃ node, c.id = some node ∧ Text.isBlankText node = false ∧ id = Text.trim node := by
  unfold id?
  by_cases hsuccess : c.success = true
  · cases hid : c.id with
    | none => simp [hsuccess]
    | some node =>
      have hfilled : Text.filled? node = if Text.isBlankText node then none else some (Text.trim node) := rfl
      cases hblank : Text.isBlankText node with
      | false =>
        simpa [hsuccess, hfilled, hblank] using eq_comm
      | true => simp [hsuccess, hfilled, hblank]
  · simp [hsuccess]

end AgentRelay.Tracker
