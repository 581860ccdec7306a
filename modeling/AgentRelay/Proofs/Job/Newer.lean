import AgentRelay.Proofs.Job.Line

/-!
# Lines from newer writers

A writer that knows more than this reader adds members to the objects that it writes: to the job, to its
event, and to everything that the event holds. None of them disturbs what is read. The payload is not
looked into, so nothing counts as an addition there.

* `ofLine_widens` compares the line of any job with what such a writer makes of it.
* `ofLine_of_widens` is the result for jobs that are read back.
-/

namespace AgentRelay

open Json

namespace Job

/-- Additions do not change what a line is read as, be it a job or a refusal. -/
theorem ofLine_widens {j : Job} (hj : j.event.IsNamed) {t : Bytes} (ht : j.doc.Widens t) :
    ofLine (t ++ [10]) = ofLine j.line := by
  have hread : readAll reader t = .ok j := readAll_of_reads (reads_doc hj t ht)
  have htrim : Bytes.trimAscii (t ++ [10]) = t := by
    obtain ⟨own, pieces, -, -, rfl⟩ := Doc.widens_object_iff.1 ht
    exact trimAscii_object pieces
  rw [ofLine_line hj, ofLine, htrim, hread]

/-- **Readers tolerate newer writers.** The line of a job that is read back is a document of nested
objects, and with any members put among those of any of the objects, under names that the reader of the
object does not know and with any values, it is still the line of that job. -/
theorem ofLine_of_widens (j : Job) (hj : j.IsKept) :
    j.line = j.doc.text ++ [10] ∧ ∀ t, j.doc.Widens t → ofLine (t ++ [10]) = .ok j := by
  refine ⟨by rw [text_doc, line], fun t ht => ?_⟩
  rw [ofLine_widens hj.event ht, hj.ofLine_line]

/-! ### A line with additions -/

/-- A job with a name and nothing else. -/
def named : Job where
  id := "j"
  contractVersion := 1

/-- A member whose key is one letter longer than a known one, that letter written by its number, and
whose value holds a number that no double can hold: `"i\u0064x" : [1E+999, {}]`. -/
def longerKey : Bytes :=
  [34, 105, 92, 117, 48, 48, 54, 52, 120, 34, 32, 58, 32, 91, 49, 69, 43, 57, 57, 57, 44, 32, 123, 125,
    93]

/-- A member whose value is a string that is no text: `"id2":"\ud800"`. -/
def loneSurrogate : Bytes := [34, 105, 100, 50, 34, 58, 34, 92, 117, 100, 56, 48, 48, 34]

/-- The session of the named job with `loneSurrogate` in the middle. -/
def newerSession : Bytes :=
  object [member "id" (quote ""), loneSurrogate, member "state" (quote ""),
    member "promptContext" (quote "")]

/-- The named job with that session, and with `longerKey` in front. -/
def newerText : Bytes :=
  object [longerKey, member "id" (quote "j"), member "contractVersion" (intText 1),
    member "idempotencyKey" (quote ""), member "sessionId" (quote ""), member "sessionStep" (quote ""),
    member "receivedAt" Instant.epoch.json,
    member "event" (object [member "id" (quote ""), member "type" (quote ""),
      member "action" (quote ""), member "payloadVersion" (intText 0),
      member "agentSession" newerSession]),
    member "payload" (Bytes.utf8 "null")]

theorem isSpaces_replicate (n : Nat) : IsSpaces (List.replicate n 32) := fun b hb => by
  rw [List.eq_of_mem_replicate hb]
  rfl

theorem isForeign_longerKey : IsForeign (namesOf fields) longerKey := by
  have hspaces := isSpaces_replicate
  have hnumber : IsNumber [49, 69, 43, 57, 57, 57] :=
    @IsNumber.mk [] [49] [] [69, 43, 57, 57, 57] (by simp) (.inr (by decide)) (.inl rfl)
      (.inr ⟨69, by simp, [43], by simp, [57, 57, 57], by decide, rfl⟩)
  have hobject : IsJson .value [123, 125] := @IsJson.empty .object [] (hspaces 0)
  have hitems : IsJson (.elements .array) [49, 69, 43, 57, 57, 57, 44, 32, 123, 125] :=
    @IsJson.more .array [49, 69, 43, 57, 57, 57] [32, 123, 125]
      (@IsJson.item [] _ [] (hspaces 0) (.number hnumber) (hspaces 0))
      (.last (@IsJson.item [32] _ [] (hspaces 1) hobject (hspaces 0)))
  have hbody : IsBody [105, 92, 117, 48, 48, 54, 52, 120] :=
    .plain (by unfold IsPlain; decide) (.code (by simp [Bytes.hexValue?]) (.plain (by unfold IsPlain; decide) .nil))
  exact @IsForeign.mk _ [] [105, 92, 117, 48, 48, 54, 52, 120] [32] [32] _ [] "idx" (hspaces 0) hbody
    (by decide +kernel) (by decide) (hspaces 1) (hspaces 1) (@IsJson.bracket .array _ hitems) (hspaces 0)

theorem isForeign_loneSurrogate : IsForeign (namesOf Session.fields) loneSurrogate := by
  have hspaces := isSpaces_replicate
  have hkey : IsBody [105, 100, 50] := by
    repeat' constructor
    all_goals decide
  have hvalue : IsBody [92, 117, 100, 56, 48, 48] := .code (by simp [Bytes.hexValue?]) .nil
  exact @IsForeign.mk _ [] [105, 100, 50] [] [] _ [] "id2" (hspaces 0) hkey (by decide +kernel)
    (by decide) (hspaces 0) (hspaces 0) (.string hvalue) (hspaces 0)

theorem widens_newerSession : Session.doc {} |>.Widens newerSession :=
  .object
    (.cons (.mk (.value _)) (.cons (.mk (.value _)) (.cons (.mk (.value _)) .nil)))
    (.own (.foreign isForeign_loneSurrogate (.refl _ _)))

theorem widens_newerText : named.doc.Widens newerText := by
  have hevent : named.event.doc.Widens _ :=
    .object (.cons (.mk (.value _)) (.cons (.mk (.value _)) (.cons (.mk (.value _))
      (.cons (.mk (.value _)) (.cons (.mk widens_newerSession) .nil))))) (.refl _ _)
  exact .object (.cons (.mk (.value _)) (.cons (.mk (.value _)) (.cons (.mk (.value _))
    (.cons (.mk (.value _)) (.cons (.mk (.value _)) (.cons (.mk (.value _)) (.cons (.mk hevent)
      (.cons (.mk (.value _)) .nil)))))))) (.foreign isForeign_longerKey (.refl _ _))

theorem ofLine_of_widens_newerText :
    named.IsKept ∧ named.doc.Widens newerText ∧ ofLine (newerText ++ [10]) = .ok named := by
  have hkept : named.IsKept :=
    ⟨rfl, by decide +kernel, by unfold WireName.IsNamed; decide,
      by unfold Session.IsNamed WireName.IsNamed; decide, fun a ha => by cases ha⟩
  exact ⟨hkept, widens_newerText, (ofLine_of_widens named hkept).2 newerText widens_newerText⟩

end Job
end AgentRelay
