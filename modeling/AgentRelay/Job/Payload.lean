import AgentRelay.Json.Reader

/-!
# The payload of a job

A job carries the body it was made from as the JSON text that arrived. The order of keys, the
spelling of numbers and fields that nothing here knows are all kept; only line breaks, which can
stand between tokens alone, become spaces.
-/

namespace AgentRelay

open Json

namespace Json

/-- A text that is one JSON value and nothing around it. -/
def IsValueText (b : Bytes) : Prop := valueText? b = some (b, [])

instance (b : Bytes) : Decidable (IsValueText b) := inferInstanceAs (Decidable (_ = _))

/-- The bytes in front of the rest are a value by themselves. -/
theorem extent_take {p : Phase} {stack : List Frame} {b rest : Bytes}
    (h : extent p stack b = some rest) :
    ∃ t, b = t ++ rest ∧ extent p stack t = some [] := by
  induction b generalizing p stack with
  | nil =>
    unfold extent at h
    split at h
    · cases h
      exact ⟨[], rfl, by unfold extent; simp_all⟩
    · cases h
  | cons c b ih =>
    unfold extent at h
    split at h
    · rename_i q s hs
      obtain ⟨t, rfl, ht⟩ := ih h
      exact ⟨c :: t, rfl, by unfold extent; simp only [hs, ht]⟩
    · split at h
      · cases h
        exact ⟨[], rfl, by unfold extent; simp_all⟩
      · cases h

/-- Skipping white space leaves no white space in front. -/
theorem skipSpace_idem (b : Bytes) : skipSpace (skipSpace b) = skipSpace b := by
  induction b with
  | nil => rfl
  | cons c b ih =>
    unfold skipSpace at *
    by_cases h : isSpace c = true
    · simpa [List.dropWhile, h] using ih
    · simp [List.dropWhile, h]

/-- The cut text of a value is a value text. -/
theorem isValueText_of_valueText? {b t rest : Bytes} (h : valueText? b = some (t, rest)) :
    IsValueText t := by
  unfold valueText? skipValue at h
  obtain ⟨r, hr, heq⟩ := Option.map_eq_some_iff.1 h
  obtain ⟨t', ht', hx⟩ := extent_take hr
  have ht : t = t' := by
    have := congrArg Prod.fst heq
    simp only [ht', List.length_append, Nat.add_sub_cancel] at this
    simpa using this.symm
  subst ht
  have hs : skipSpace t = t := by
    cases t with
    | nil => rfl
    | cons c t =>
      have hc := skipSpace_idem b
      rw [ht'] at hc
      unfold skipSpace at hc ⊢
      by_cases hsp : isSpace c = true
      · have hlen := congrArg List.length hc
        have hle : (List.dropWhile isSpace (t ++ r)).length ≤ (t ++ r).length :=
          (List.dropWhile_sublist _).length_le
        simp only [List.cons_append, List.dropWhile, hsp, List.length_cons] at hlen
        omega
      · simp [List.dropWhile, hsp]
  unfold IsValueText valueText? skipValue
  simp [hs, hx]

end Json

/-- The JSON text of a body. -/
structure Payload where
  text : String
  isValue : IsValueText (Bytes.utf8 text)
  deriving DecidableEq

namespace Payload

/-- The payload of a text that is one JSON value and nothing around it. -/
def ofText? (s : String) : Option Payload :=
  if h : IsValueText (Bytes.utf8 s) then some ⟨s, h⟩ else none

/-- The payload `null`. -/
def null : Payload := ⟨"null", by decide +kernel⟩

instance : Inhabited Payload := ⟨null⟩

/-- There is no body. -/
def isNull (p : Payload) : Bool := p.text == "null"

/-- Reads any value as a payload. -/
def reader : Reader Payload := fun _ b =>
  match h : valueText? b with
  | none => .error .malformed
  | some (t, rest) =>
    match hs : Bytes.ofUtf8? t with
    | none => .error .malformed
    | some s =>
      .ok (⟨s, Bytes.eq_utf8_of_ofUtf8? hs ▸ isValueText_of_valueText? h⟩, rest)

/-- The written payload. -/
def json (p : Payload) : Bytes := Bytes.utf8 p.text

/-- Line breaks as spaces. -/
def oneLine (s : String) : String :=
  String.ofList (s.toList.map fun c => if c == '\n' || c == '\r' then ' ' else c)

/-- The payload of a body: its one JSON value, on one line. -/
def ofBody (body : Bytes) : Except Fault Payload :=
  match readAll reader body with
  | .error e => .error e
  | .ok p =>
    if p.text.toList.any fun c => c == '\n' || c == '\r' then
      match ofText? (oneLine p.text) with
      | some p => .ok p
      | none => .error .malformed
    else .ok p

end Payload
end AgentRelay
