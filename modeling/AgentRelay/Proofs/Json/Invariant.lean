import AgentRelay.Json.Reader
import Mathlib.Tactic.Common

/-!
# What holds of everything that is read

A property of a record holds of whatever its reader answers with, when the record it starts from has
the property and the value of every field keeps it.

* `Gives r P` says that `r` answers with values that satisfy `P`, `Keeps f P` that a field keeps `P`.
* `gives_checkedRecord` and `gives_record` are the rules for records.
-/

namespace AgentRelay.Json

variable {σ α β : Type}

/-- Everything that the reader answers with has the property. -/
def Gives (r : Reader α) (P : α → Prop) : Prop := ∀ n b a rest, r n b = .ok (a, rest) → P a

theorem gives_true (r : Reader α) : Gives r fun _ => True := fun _ _ _ _ _ => trivial

theorem Gives.bind {r : Reader α} {P : α → Prop} {f : α → Reader β} {Q : β → Prop} (h : Gives r P)
    (hf : ∀ a, P a → Gives (f a) Q) : Gives (r.bind f) Q := by
  intro n b c rest hc
  unfold Reader.bind at hc
  cases hr : r n b with
  | error e => simp [hr] at hc
  | ok x =>
    obtain ⟨a, tail⟩ := x
    simp only [hr] at hc
    exact hf a (h n b a tail hr) n tail c rest hc

theorem gives_pure {P : α → Prop} {a : α} (h : P a) : Gives (Reader.pure a) P := by
  intro n b c rest hc
  cases hc
  exact h

theorem Gives.map {r : Reader α} {P : α → Prop} {f : α → β} {Q : β → Prop} (h : Gives r P)
    (hf : ∀ a, P a → Q (f a)) : Gives (r.map f) Q :=
  h.bind fun a ha => gives_pure (hf a ha)

/-- What holds of every value holds of a value that may be `null`. -/
theorem gives_nullable {r : Reader α} {P : α → Prop} (h : Gives r P) :
    Gives (nullable r) fun o => ∀ a ∈ o, P a := by
  intro n b o rest ho
  unfold nullable at ho
  split at ho
  · split at ho
    · cases ho
      simp
    · cases ho
  · exact h.map (Q := fun o : Option α => ∀ a ∈ o, P a) (fun a ha => by simpa using ha) n _ o rest ho

/-! ### Records -/

/-- The value of the field keeps the property of the record. -/
def Keeps (f : MemberReader σ) (P : σ → Prop) : Prop := Gives f.read fun store => ∀ s, P s → P (store s)

theorem keeps_field {name : String} {r : Reader α} {store : α → σ → σ} {P : σ → Prop} {Q : α → Prop}
    (hr : Gives r Q) (h : ∀ a s, Q a → P s → P (store a s)) : Keeps (field name r store) P :=
  hr.map fun a ha s hs => h a s ha hs

/-- A field that has nothing to do with the property. -/
theorem keeps_other {name : String} {r : Reader α} {store : α → σ → σ} {P : σ → Prop}
    (h : ∀ a s, P s → P (store a s)) : Keeps (field name r store) P :=
  keeps_field (gives_true r) fun a s _ hs => h a s hs

variable {fields : List (MemberReader σ)} {P : σ → Prop}

theorem gives_readMember {f : MemberReader σ} (hf : Keeps f P) {s : σ} (hs : P s) :
    Gives (readMember f s) P :=
  (gives_true colon).bind fun _ _ => Gives.bind hf fun _ hstore => gives_pure (hstore s hs)

theorem gives_skipMember {s : σ} (hs : P s) : Gives (skipMember s) P :=
  (gives_true colon).bind fun _ _ => (gives_true ignored).bind fun _ _ => gives_pure hs

/-- The members of an object keep what its fields keep. -/
theorem gives_members (hfields : ∀ f ∈ fields, Keeps f P) (fuel : Nat) (first : Bool)
    (seen : List String) {s : σ} (hs : P s) : Gives (members fields fuel first seen s) P := by
  induction fuel generalizing first seen s with
  | zero =>
    intro n b a rest h
    cases h
  | succ fuel ih =>
    intro n b a rest h
    rw [members] at h
    split at h
    · cases h
    · cases h
      exact hs
    · split at h
      · split at h
        · cases h
        · rename_i hskip
          exact ih false seen (gives_skipMember hs _ _ _ _ hskip) _ _ _ _ h
      · rename_i f hf
        split at h
        · cases h
        · split at h
          · cases h
          · rename_i hread
            have hmem : f ∈ fields := List.mem_of_find?_eq_some hf
            exact ih false _ (gives_readMember (hfields f hmem) hs _ _ _ _ hread) _ _ _ _ h

/-- So do the elements of an array. -/
theorem gives_positional (hfields : ∀ f ∈ fields, Keeps f P) (first : Bool) {s : σ} (hs : P s) :
    Gives (positional fields first s) P := by
  induction fields generalizing first s with
  | nil => exact gives_pure hs
  | cons f fields ih =>
    refine (gives_true (nextItem first)).bind fun more _ => ?_
    split
    · refine Gives.bind (hfields f (by simp)) fun store hstore => ?_
      exact ih (fun g hg => hfields g (List.mem_cons_of_mem _ hg)) false (hstore s hs)
    · exact gives_pure hs

/-- A check behind the fields and the bracket that closes them change nothing. -/
theorem gives_checked {body : Reader σ} {close : Reader Unit} (check : σ → Option Fault)
    (hbody : Gives body P) :
    Gives (body.bind fun s => match check s with
      | some e => .fail e
      | none => close.bind fun _ => .pure s) P := by
  refine hbody.bind fun s hs => ?_
  split
  · intro n b a rest h
    cases h
  · exact (gives_true close).bind fun _ _ => gives_pure hs

/-- A record has the properties that hold at its start and that its fields keep. -/
theorem gives_checkedRecord (expected : String) {start : σ} (check : Bool → σ → Option Fault)
    (hstart : P start) (hfields : ∀ f ∈ fields, Keeps f P) :
    Gives (checkedRecord expected fields start check) P := by
  intro n b a rest h
  unfold checkedRecord at h
  simp only at h
  split at h
  · exact gives_checked (check true) (gives_positional hfields true hstart) _ _ _ _ h
  · exact gives_checked (check false) (gives_members hfields _ true [] hstart) _ _ _ _ h
  · cases h

theorem gives_record (expected : String) {start : σ} (hstart : P start)
    (hfields : ∀ f ∈ fields, Keeps f P) : Gives (record expected fields start) P :=
  gives_checkedRecord expected _ hstart hfields

/-- What holds of everything read holds of a whole text. -/
theorem Gives.readAll {r : Reader α} {P : α → Prop} (h : Gives r P) {b : Bytes} {a : α}
    (ha : readAll r b = .ok a) : P a := by
  unfold Json.readAll at ha
  split at ha
  · cases ha
  · rename_i hread
    split at ha
    · cases ha
      exact h _ _ _ _ hread
    · cases ha

end AgentRelay.Json
