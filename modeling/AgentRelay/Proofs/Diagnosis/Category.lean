import AgentRelay.Diagnosis
import AgentRelay.Proofs.Text.LowerCase
import AgentRelay.Proofs.Trace
import AgentRelay.Tracker.Client

/-!
# Categories of failures

A text has the first category that a word in it speaks for. So one word more, wherever it comes from, can
change the category of a text, and the category of a failed call is safe only as long as its kind is known.

* `Category.Speaks` says that a word for a category occurs, `Category.ofText_eq_iff` what decides.
* `Category.ofFailure_of_wordless` is a failure in which no cause has kept its kind.
* `Tracker.Error.speaks` says that the wording of a failed post speaks for the category of its kind.
-/

namespace AgentRelay

open Script

namespace Category

/-- The words that speak for a category. -/
def words (c : Category) : List String := (markers.lookup c).getD []

/-- The categories that come before another in the order of precedence. -/
def before (c : Category) : List Category := (markers.map Prod.fst).takeWhile (· ≠ c)

/-- A word for the category occurs in the text, in any case. -/
def Speaks (c : Category) (text : String) : Prop :=
  ∃ word ∈ c.words, word.toList <:+: Text.lower text.toList

theorem any_words_iff {c : Category} {text : String} :
    (c.words.any fun word => Text.occursIn word.toList (Text.lower text.toList)) = true ↔ c.Speaks text := by
  simp only [List.any_eq_true, Text.occursIn_iff, Speaks]

instance (c : Category) (text : String) : Decidable (c.Speaks text) := decidable_of_iff _ any_words_iff

/-- No word is told apart by a sigma. -/
theorem hasNoSigma_of_mem_words {c : Category} {word : String} (h : word ∈ c.words) :
    Text.HasNoSigma word.toList := by
  have hall : ∀ c : Category, ∀ word ∈ c.words, Text.HasNoSigma word.toList := by
    intro c
    cases c <;> decide
  exact hall c word h

/-- A text around another speaks for everything that the other speaks for. -/
theorem Speaks.mono {c : Category} {part whole : String} (h : c.Speaks part)
    (hpart : part.toList <:+: whole.toList) : c.Speaks whole := by
  obtain ⟨word, hword, hoccurs⟩ := h
  exact ⟨word, hword, (hasNoSigma_of_mem_words hword).infix_lower_mono hpart hoccurs⟩

theorem Speaks.around {c : Category} {part : String} (h : c.Speaks part) (front back : String) :
    c.Speaks (front ++ part ++ back) :=
  h.mono ⟨front.toList, back.toList, by simp⟩

/-- The category of a text by the categories that it speaks for. -/
theorem ofText_eq (text : String) :
    ofText text = if webhook.Speaks text then webhook else if auth.Speaks text then auth
      else if graphQl.Speaks text then graphQl else if runtime.Speaks text then runtime
      else unknown := by
  have hmarkers : markers = [webhook, auth, graphQl, runtime].map fun c => (c, c.words) := rfl
  unfold ofText
  simp only [hmarkers, List.map_cons, List.map_nil, List.find?_cons, ← any_words_iff]
  split_ifs <;> simp [*]

/-- A text has a category just when it speaks for it and for none before it. -/
theorem ofText_eq_iff {c : Category} (hc : c ≠ unknown) {text : String} :
    ofText text = c ↔ c.Speaks text ∧ ∀ c' ∈ c.before, ¬ c'.Speaks text := by
  have hbefore : webhook.before = [] ∧ auth.before = [webhook] ∧ graphQl.before = [webhook, auth] ∧
      runtime.before = [webhook, auth, graphQl] := ⟨rfl, rfl, rfl, rfl⟩
  obtain ⟨hwebhook, hauth, hgraphQl, hruntime⟩ := hbefore
  rw [ofText_eq]
  cases c with
  | unknown => contradiction
  | webhook => rw [hwebhook]; split_ifs <;> simp [*]
  | auth => rw [hauth]; split_ifs <;> simp [*]
  | graphQl => rw [hgraphQl]; split_ifs <;> simp [*]
  | runtime => rw [hruntime]; split_ifs <;> simp [*]

/-! ### Causes that keep their kind -/

/-- When no cause has a category by its kind, words decide. -/
theorem ofFailure_of_wordless {f : Failure} (h : ∀ x ∈ f.chain, ofCause? x = none) :
    ofFailure f = ofText f.text := by
  rw [ofFailure, List.findSome?_eq_none_iff.2 h]
  rfl

/-- A failed call that is passed on as it is has the category of its kind. -/
theorem ofFailure_ofTracker {e : Tracker.Error} {c : Category} (h : ofTracker? e = some c) :
    ofFailure (.ofTracker e) = c := by
  have hcause : ofCause? (.tracker e) = some c := h
  simp only [ofFailure, Failure.ofTracker, Failure.chain, List.findSome?_cons, hcause, Option.getD_some]

theorem ne_unknown_of_ofTracker? {e : Tracker.Error} {c : Category} (h : ofTracker? e = some c) :
    c ≠ unknown := by
  rintro rfl
  unfold ofTracker? at h
  split at h
  · cases h
  · split at h <;> cases h
  all_goals cases h

end Category

/-! ### Failed calls -/

namespace Tracker

/-- The failure is one of an operation on something, or of what went before it. -/
def Error.IsOf (operation what : String) : Error → Prop
  | .transport op _ | .status op _ _ | .graphQl op _ | .unsuccessful op | .decode op _ | .cancelled op =>
    op = operation
  | .missingIdentifier op w => op = operation ∧ w = what
  | _ => True

/-- The call was refused for its input. -/
def Error.IsRefusal : Error → Prop
  | endpointRequired | tokenRequired | sessionIdRequired | idempotencyKeyRequired | content _ => True
  | _ => False

/-- Whatever the call fails with is a failure of its operation. -/
def FailsAs (operation what : String) {α : Type} (r : Except Error α) : Prop :=
  ∀ e, r = .error e → e.IsOf operation what

/-- Whatever it fails with is a failure of the exchange, and no refusal. -/
def FailsInExchange (operation what : String) {α : Type} (r : Except Error α) : Prop :=
  ∀ e, r = .error e → e.IsOf operation what ∧ ¬ e.IsRefusal

section Failing

variable {operation what : String} {α β : Type}

theorem failsInExchange_ok (a : α) : FailsInExchange operation what (.ok a) := nofun

theorem failsInExchange_error {e : Error} (h : e.IsOf operation what) (hrefusal : ¬ e.IsRefusal) :
    FailsInExchange operation what (.error e : Except Error α) := by
  rintro _ ⟨⟩
  exact ⟨h, hrefusal⟩

theorem FailsInExchange.bind {r : Except Error α} {f : α → Except Error β}
    (h : FailsInExchange operation what r) (hf : ∀ a, FailsInExchange operation what (f a)) :
    FailsInExchange operation what (r.bind f) := by
  cases r with
  | error e => exact failsInExchange_error (h e rfl).1 (h e rfl).2
  | ok a => exact hf a

theorem failsInExchange_decodeEnvelope (r : Json.Reader α) (body : Bytes) :
    FailsInExchange operation what (decodeEnvelope operation r body) := by
  unfold decodeEnvelope
  split
  · exact failsInExchange_ok _
  · cases Json.readAll (Envelope.reader r) body with
    | ok a => exact failsInExchange_ok a
    | error fault => exact failsInExchange_error rfl id

theorem failsInExchange_judge (r : Json.Reader α) (status : Nat) (body : Bytes) :
    FailsInExchange operation what (judge operation r status body) := by
  unfold judge
  split
  · rename_i e hdecode
    obtain ⟨hof, hrefusal⟩ := failsInExchange_decodeEnvelope r body e hdecode
    exact failsInExchange_error hof hrefusal
  · split
    · exact failsInExchange_error rfl id
    · split
      · exact failsInExchange_error rfl id
      · exact failsInExchange_ok _

theorem failsInExchange_data (r : Json.Reader α) (reply : Reply) :
    FailsInExchange operation what (reply.data operation r) := by
  unfold Reply.data
  split
  · exact failsInExchange_error rfl id
  · exact failsInExchange_judge r _ _

theorem failsInExchange_id? (c : Confirmation) : FailsInExchange operation what (c.id? operation what) := by
  unfold Confirmation.id?
  split
  · exact failsInExchange_error rfl id
  · split
    · exact failsInExchange_ok _
    · exact failsInExchange_error ⟨rfl, rfl⟩ id

theorem yields_execute (c : Client) (r : Json.Reader α) (body : Bytes) :
    (c.execute operation r body).Yields (fun _ _ => True) (FailsInExchange operation what) := by
  rintro (_ | _) -
  · simp only [Bool.false_eq_true, ↓reduceIte]
    split
    · exact failsInExchange_error (e := .transport operation _) rfl id
    · rintro (reply | fault | _) -
      · exact failsInExchange_data r reply
      · exact failsInExchange_error (e := .transport operation fault) rfl id
      · exact failsInExchange_error (e := .cancelled operation) rfl id
  · exact failsInExchange_error (e := .cancelled operation) rfl id

end Failing

theorem failsAs_check {operation what : String} (p : Post) : FailsAs operation what p.check := by
  intro e h
  unfold Post.check at h
  split at h
  · cases h
    trivial
  · split at h
    · cases h
      trivial
    · cases hutterance : p.utterance.check with
      | ok _ =>
        rw [hutterance] at h
        cases h
      | error _ =>
        rw [hutterance] at h
        cases h
        trivial

/-- A post that is not refused fails in the exchange. -/
theorem yields_post_of_check {p : Post} (h : p.check = .ok ()) (c : Client) :
    (c.post p).Yields (fun _ _ => True) (FailsInExchange Client.postOperation "activity") := by
  unfold Client.post
  rw [h]
  exact (yields_execute c _ _).bind fun r hr => hr.bind fun data => failsInExchange_id? _

/-- A post fails as a post. -/
theorem yields_post (c : Client) (p : Post) :
    (c.post p).Yields (fun _ _ => True) (FailsAs Client.postOperation "activity") := by
  cases hcheck : p.check with
  | error e =>
    unfold Client.post
    rw [hcheck]
    rintro _ ⟨⟩
    exact failsAs_check p e hcheck
  | ok _ => exact (yields_post_of_check hcheck c).mono fun r hr e h => (hr e h).1

/-- The wording of a failed post speaks for the category that the failure has by its kind. -/
theorem Error.speaks {e : Error} (h : e.IsOf Client.postOperation "activity") {category : Category}
    (hkind : Category.ofTracker? e = some category) : category.Speaks e.message := by
  cases e with
  | tokenRequired =>
    cases hkind
    decide +kernel
  | status operation code body =>
    have hcode : code = 401 ∨ code = 403 := by
      by_contra hother
      simp only [not_or] at hother
      simp [Category.ofTracker?, hother] at hkind
    obtain rfl : category = .auth := by
      rcases hcode with rfl | rfl <;> cases hkind <;> rfl
    have hword : Category.auth.Speaks (" http " ++ toString code) := by
      rcases hcode with rfl | rfl <;> decide +kernel
    have hmessage : message (.status operation code body) =
        operation ++ (" http " ++ toString code) ++ (": " ++ body) := by
      simp only [message, String.append_assoc, toString]
    exact hmessage ▸ hword.around operation (": " ++ body)
  | graphQl operation messages =>
    cases hkind
    have hword : Category.graphQl.Speaks " graphql errors: " := by decide +kernel
    exact hword.around operation messages
  | unsuccessful operation =>
    cases hkind
    obtain rfl : operation = Client.postOperation := h
    decide +kernel
  | missingIdentifier operation what =>
    cases hkind
    obtain ⟨rfl, rfl⟩ := h
    decide +kernel
  | _ => cases hkind

end Tracker
end AgentRelay
