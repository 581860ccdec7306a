import AgentRelay.Proofs.Diagnosis.Category

/-!
# Contexts in front of a failure

Code that passes a failure on puts contexts in front of it. They are notes, so a cause that decides by its kind
still decides. Where none does, words decide, and a text with more around it speaks for all that it spoke for
before: its category can rise in the order of precedence and not fall.

* `Failure.within` puts contexts in front, `Failure.chain_within` and `Failure.text_within` say what they do.
* `Category.rank_ofText_mono` is the law for texts.
* `Category.ofFailure_within` is the law for failures.
-/

namespace AgentRelay

namespace Failure

/-- Contexts put in front one after the other. -/
def within (f : Failure) (contexts : List String) : Failure := contexts.foldl context f

theorem within_cons (f : Failure) (text : String) (contexts : List String) :
    f.within (text :: contexts) = (f.context text).within contexts := rfl

theorem text_context (f : Failure) (text : String) : (f.context text).text = text ++ ": " ++ f.text :=
  String.intercalate_cons_cons

/-- Contexts are notes in front of the chain, the last one outermost. -/
theorem chain_within (f : Failure) (contexts : List String) :
    (f.within contexts).chain = contexts.reverse.map .note ++ f.chain := by
  induction contexts generalizing f with
  | nil => rfl
  | cons text contexts ih =>
    have hcontext : (f.context text).chain = .note text :: f.chain := rfl
    rw [within_cons, ih, hcontext, List.reverse_cons, List.map_append, List.append_assoc]
    rfl

/-- The text of a failure stays the end of the text. -/
theorem text_within (f : Failure) (contexts : List String) :
    f.text.toList <:+ (f.within contexts).text.toList := by
  induction contexts generalizing f with
  | nil => exact List.suffix_rfl
  | cons text contexts ih =>
    have hcontext : f.text.toList <:+ (f.context text).text.toList := by
      rw [text_context, String.toList_append]
      exact List.suffix_append _ _
    exact hcontext.trans (ih (f.context text))

end Failure

namespace Category

/-- The place in the order of precedence. -/
def rank : Category → Nat
  | webhook => 4
  | auth => 3
  | graphQl => 2
  | runtime => 1
  | unknown => 0

/-! ### Texts -/

theorem not_speaks_unknown (text : String) : ¬ unknown.Speaks text := by
  rintro ⟨word, hword, -⟩
  cases hword

/-- No category that a text speaks for ranks above that of the text. -/
theorem Speaks.rank_le {c : Category} {text : String} (h : c.Speaks text) : c.rank ≤ (ofText text).rank := by
  rw [ofText_eq]
  cases c with
  | webhook => rw [if_pos h]
  | auth =>
    split_ifs
    · decide
    · exact le_rfl
  | graphQl =>
    split_ifs
    · decide
    · decide
    · exact le_rfl
  | runtime =>
    split_ifs
    · decide
    · decide
    · decide
    · exact le_rfl
  | unknown => exact absurd h (not_speaks_unknown text)

/-- What is put around a text does not lower its category. -/
theorem rank_ofText_mono {part whole : String} (h : part.toList <:+: whole.toList) :
    (ofText part).rank ≤ (ofText whole).rank := by
  by_cases hpart : ofText part = unknown
  · rw [hpart]
    exact Nat.zero_le _
  · -- the whole speaks for the category of the part too
    have hspeaks : (ofText part).Speaks part := ((ofText_eq_iff hpart).1 rfl).1
    exact (hspeaks.mono h).rank_le

/-! ### Failures -/

/-- The first cause that has a category by its kind has this one. -/
def Decides (c : Category) (f : Failure) : Prop :=
  ∃ front cause back, f.chain = front ++ cause :: back ∧ ofCause? cause = some c ∧
    ∀ x ∈ front, ofCause? x = none

theorem decides_iff {c : Category} {f : Failure} : c.Decides f ↔ f.chain.findSome? ofCause? = some c :=
  List.findSome?_eq_some_iff.symm

theorem Decides.ofFailure_eq {c : Category} {f : Failure} (h : c.Decides f) : ofFailure f = c := by
  rw [ofFailure, decides_iff.1 h, Option.getD_some]

/-- A failure without a deciding cause has the category of its text. -/
theorem ofFailure_of_not_decides {f : Failure} (h : ∀ c : Category, ¬ c.Decides f) :
    ofFailure f = ofText f.text := by
  apply ofFailure_of_wordless
  rw [← List.findSome?_eq_none_iff, Option.eq_none_iff_forall_ne_some]
  intro c hc
  exact h c (decides_iff.2 hc)

/-- Notes in front neither decide nor keep a cause from deciding. -/
theorem decides_within_iff {c : Category} {f : Failure} (contexts : List String) :
    c.Decides (f.within contexts) ↔ c.Decides f := by
  have hnotes : (contexts.reverse.map Cause.note).findSome? ofCause? = none := by
    rw [List.findSome?_eq_none_iff]
    intro x hx
    obtain ⟨text, -, rfl⟩ := List.mem_map.1 hx
    rfl
  rw [decides_iff, decides_iff, Failure.chain_within, List.findSome?_append, hnotes, Option.none_or]

/-- **A context never weakens a category.** A category that a cause decides by its kind is kept, whatever the
contexts say. Where no cause decides, contexts can only raise the category, for whatever is put around a text
can only raise the category of the text. -/
theorem ofFailure_within (f : Failure) (contexts : List String) :
    (∀ c : Category, c.Decides f → ofFailure f = c ∧ ofFailure (f.within contexts) = c) ∧
    ((∀ c : Category, ¬ c.Decides f) → (ofFailure f).rank ≤ (ofFailure (f.within contexts)).rank) ∧
    ∀ front text back : String, (ofText text).rank ≤ (ofText (front ++ text ++ back)).rank := by
  refine ⟨?_, ?_, ?_⟩
  · intro c hc
    have hwithin : c.Decides (f.within contexts) := (decides_within_iff contexts).2 hc
    exact ⟨hc.ofFailure_eq, hwithin.ofFailure_eq⟩
  · intro hnone
    have hwithin : ∀ c : Category, ¬ c.Decides (f.within contexts) := by
      intro c hc
      exact hnone c ((decides_within_iff contexts).1 hc)
    rw [ofFailure_of_not_decides hnone, ofFailure_of_not_decides hwithin]
    exact rank_ofText_mono (f.text_within contexts).isInfix
  · intro front text back
    apply rank_ofText_mono
    rw [String.toList_append, String.toList_append]
    exact List.infix_append _ _ _

/-- A forbidden call behind a context that speaks for another category, and a text in which a sigma that ended a
word no longer does. -/
theorem ofFailure_within_forbidden :
    ofFailure ((Failure.ofTracker (.status "call" 403 "")).within ["webhook", "queue file"]) = auth ∧
      (ofFailure (.note "RUNNER TIMEOUT ΟΔΟΣ")).rank ≤
        (ofFailure ((Failure.note "RUNNER TIMEOUT ΟΔΟΣ").within ["Bearer"])).rank ∧
      (ofText "TIMED OUT ΟΔΟΣ").rank ≤ (ofText ("Σ" ++ "TIMED OUT ΟΔΟΣ" ++ "Α")).rank := by
  have hforbidden : auth.Decides (.ofTracker (.status "call" 403 "")) := decides_iff.2 rfl
  have hnote : ∀ c : Category, ¬ c.Decides (.note "RUNNER TIMEOUT ΟΔΟΣ") := by
    intro c hc
    cases decides_iff.1 hc
  exact ⟨((ofFailure_within _ ["webhook", "queue file"]).1 auth hforbidden).2,
    (ofFailure_within _ ["Bearer"]).2.1 hnote, (ofFailure_within (.note "") []).2.2 _ _ _⟩

end Category
end AgentRelay
