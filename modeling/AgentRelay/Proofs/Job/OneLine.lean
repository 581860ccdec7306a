import AgentRelay.Job.Line
import AgentRelay.Proofs.Json.Integer

/-!
# A job is written on one line

Line feeds inside strings are escaped and none is written between tokens, so the only line feed of a
queue line is the one at its end, as long as the payload has none.

* `IsOneLine` for written values, with a rule for each way to write a member.
* `Job.isOneLine_json` is the written job.
-/

namespace AgentRelay

open Json

namespace Json

/-- The bytes hold no line feed. -/
def IsOneLine (b : Bytes) : Prop := 10 ∉ b

@[simp] theorem isOneLine_nil : IsOneLine [] := by simp [IsOneLine]

@[simp] theorem isOneLine_cons {x : UInt8} {b : Bytes} :
    IsOneLine (x :: b) ↔ x ≠ 10 ∧ IsOneLine b := by
  simp [IsOneLine, eq_comm]

@[simp] theorem isOneLine_append {a b : Bytes} : IsOneLine (a ++ b) ↔ IsOneLine a ∧ IsOneLine b := by
  simp [IsOneLine]

/-! ### Strings and numbers -/

/-- The escape of a byte is written on one line, also the escape of a line feed. -/
theorem isOneLine_escapeByte (b : UInt8) : IsOneLine (escapeByte b) := by
  have hplain : ∀ x : UInt8, IsPlain x → x ≠ 10 := by
    rintro x ⟨-, -, hx⟩ rfl
    exact hx (by decide)
  obtain ⟨hb, h⟩ | ⟨e, -, he, -, h⟩ | ⟨hb, h⟩ := escapeByte_cases b
  -- the byte itself, a short escape, or a long one
  · simpa [h] using hplain b hb
  · have hne : e ≠ 10 := by
      rintro rfl
      exact absurd he (by decide)
    simpa [h] using hne
  · have hn := toNat_lt_of_lt hb
    have hhigh := hplain _ (isPlain_hexDigit (b.toNat / 16) (by omega))
    have hlow := hplain _ (isPlain_hexDigit (b.toNat % 16) (by omega))
    simp [h, longEscape, hhigh, hlow]

@[simp] theorem isOneLine_quote (s : String) : IsOneLine (quote s) := by
  have hescape : IsOneLine (escape (Bytes.utf8 s)) := by
    intro h
    obtain ⟨b, -, hb⟩ := List.mem_flatMap.1 h
    exact isOneLine_escapeByte b hb
  simpa [quote] using hescape

@[simp] theorem isOneLine_intText (i : Int) : IsOneLine (intText i) := by
  have hdigits : IsOneLine (natText i.natAbs) := fun h => by
    have := isDigit_of_mem_natText h
    contradiction
  rw [intText_eq]
  split
  · simpa using hdigits
  · exact hdigits

/-! ### Objects and arrays -/

variable {α : Type}

@[simp] theorem isOneLine_commas {pieces : List Bytes} :
    IsOneLine (commas pieces) ↔ ∀ t ∈ pieces, IsOneLine t := by
  have hfollowers : ∀ ts : List Bytes, IsOneLine (followers ts) ↔ ∀ t ∈ ts, IsOneLine t := by
    intro ts
    induction ts with
    | nil => simp [followers]
    | cons t ts ih => simp [ih]
  cases pieces with
  | nil => simp [commas]
  | cons t ts => simp [commas_cons, hfollowers]

@[simp] theorem isOneLine_member (key : String) {value : Bytes} :
    IsOneLine (member key value) ↔ IsOneLine value := by
  simp [member]

@[simp] theorem isOneLine_object {members : List Bytes} :
    IsOneLine (object members) ↔ ∀ m ∈ members, IsOneLine m := by
  simp [object]

@[simp] theorem isOneLine_array {values : List Bytes} :
    IsOneLine (array values) ↔ ∀ v ∈ values, IsOneLine v := by
  simp [array]

@[simp] theorem isOneLine_optional (key : String) {write : α → Bytes} {a : Option α} :
    (∀ m ∈ optional key write a, IsOneLine m) ↔ ∀ x ∈ a, IsOneLine (write x) := by
  cases a <;> simp [optional]

theorem isOneLine_unlessEmpty (key s : String) : ∀ m ∈ unlessEmpty key s, IsOneLine m := by
  rw [unlessEmpty]
  split <;> simp

@[simp] theorem isOneLine_unlessNil (key : String) {write : α → Bytes} {l : List α} :
    (∀ m ∈ unlessNil key write l, IsOneLine m) ↔ ∀ x ∈ l, IsOneLine (write x) := by
  rw [unlessNil]
  split
  · simp_all
  · simp

end Json

/-! ### Events and jobs -/

@[simp] theorem Instant.isOneLine_json (t : Instant) : IsOneLine t.json := isOneLine_quote t.text

@[simp] theorem ExternalUrl.isOneLine_json (u : ExternalUrl) : IsOneLine u.json := by simp [json]

@[simp] theorem Issue.isOneLine_json (i : Issue) : IsOneLine i.json := by
  simpa [json, or_imp, forall_and] using ⟨isOneLine_unlessEmpty "identifier" i.identifier,
    isOneLine_unlessEmpty "title" i.title⟩

@[simp] theorem Comment.isOneLine_json (c : Comment) : IsOneLine c.json := by simp [json]

@[simp] theorem Guidance.isOneLine_json (g : Guidance) : IsOneLine g.json := by simp [json]

@[simp] theorem Content.isOneLine_json (c : Content) : IsOneLine c.json := by
  simpa [json, or_imp, forall_and] using ⟨isOneLine_unlessEmpty "body" c.body,
    isOneLine_unlessEmpty "action" c.action, isOneLine_unlessEmpty "parameter" c.parameter⟩

@[simp] theorem Activity.isOneLine_json (a : Activity) : IsOneLine a.json := by simp [json]

@[simp] theorem Session.isOneLine_json (s : Session) : IsOneLine s.json := by
  simp [json, or_imp, forall_and]

@[simp] theorem SessionEvent.isOneLine_json (e : SessionEvent) : IsOneLine e.json := by
  simp [json, or_imp, forall_and]

/-- A job is written on one line when its payload is. -/
theorem Job.isOneLine_json {j : Job} (h : IsOneLine j.payload.json) : IsOneLine j.json := by
  simp [json, or_imp, forall_and, h]

end AgentRelay
