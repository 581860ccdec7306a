import AgentRelay.Job.Payload
import AgentRelay.Proofs.Json.Reads

/-!
# Where a value ends

The machine that passes over a value stops behind a text that is one value, whatever closes it. So
a payload, which is such a text, is read back from where it was written.

* `extent_append` is the machine in front of a comma, a closing bracket or the end.
* `reads_payload` is the rule for payloads.
-/

namespace AgentRelay

namespace Json

/-- Outside of brackets nothing that closes a value belongs to it. -/
theorem step_eq_none {p : Phase} (hp : p.ends = true) {b : UInt8} (hb : b = 44 ∨ b = 93 ∨ b = 125) :
    step p [] b = none := by
  rcases hb with rfl | rfl | rfl <;> cases p <;> first | rfl | cases hp

/-- The machine stops behind a value, in front of whatever closes it. -/
theorem extent_append {p : Phase} {stack : List Frame} {t rest : Bytes}
    (h : extent p stack t = some []) (hrest : Closes rest) :
    extent p stack (t ++ rest) = some rest := by
  induction t generalizing p stack with
  | nil =>
    unfold extent at h
    split at h
    · rename_i hends
      simp only [Bool.and_eq_true, List.isEmpty_iff] at hends
      obtain ⟨hp, rfl⟩ := hends
      cases rest with
      | nil => simp [extent, hp]
      | cons b rest => simp [extent, step_eq_none hp (hrest b rfl), hp]
    · cases h
  | cons c t ih =>
    unfold extent at h
    rw [List.cons_append, extent]
    split at h
    · rename_i hs
      simpa [hs] using ih h
    · split at h <;> simp at h

/-- A value text has no white space in front and is a value to its end. -/
theorem IsValueText.spec {t : Bytes} (h : IsValueText t) :
    skipSpace t = t ∧ skipValue t = some [] := by
  obtain ⟨r, hr, heq⟩ := Option.map_eq_some_iff.1 (show _ = some (t, []) from h)
  obtain ⟨htake, rfl⟩ := Prod.mk.inj heq
  have hskip : skipSpace t = t := by simpa using htake
  exact ⟨hskip, by simpa [hskip] using hr⟩

/-- A value text is cut off in front of whatever closes the value. -/
theorem valueText?_append {t rest : Bytes} (h : IsValueText t) (hrest : Closes rest) :
    valueText? (t ++ rest) = some (t, rest) := by
  obtain ⟨hskip, hvalue⟩ := h.spec
  have hskip' : skipSpace (t ++ rest) = t ++ rest := by
    cases t with
    | nil => simp [skipValue, extent, Phase.ends] at hvalue
    | cons c t =>
      have hc : isSpace c = false := by
        cases hc : isSpace c with
        | false => rfl
        | true =>
          have hlength := congrArg List.length hskip
          have hle := (List.dropWhile_sublist isSpace (l := t)).length_le
          simp only [skipSpace, List.dropWhile_cons, hc, ↓reduceIte, List.length_cons] at hlength
          omega
      exact skipSpace_of_not_isSpace hc (t ++ rest)
  have hextent : skipValue (t ++ rest) = some rest := extent_append hvalue hrest
  simp [valueText?, hskip', hextent]

end Json

open Json

/-- A written payload is read. -/
theorem reads_payload (p : Payload) : Reads Payload.reader p.json p := by
  intro n rest _ hrest
  have hvalue : valueText? (p.json ++ rest) = some (p.json, rest) :=
    valueText?_append p.isValue hrest
  have htext : Bytes.ofUtf8? p.json = some p.text := Bytes.ofUtf8?_utf8 p.text
  unfold Payload.reader
  split
  · simp_all
  · rename_i t r ht
    obtain ⟨rfl, rfl⟩ : p.json = t ∧ rest = r := by simpa [hvalue] using ht
    split
    · simp_all
    · rename_i s hs
      obtain rfl : p.text = s := by simpa [htext] using hs
      rfl

end AgentRelay
