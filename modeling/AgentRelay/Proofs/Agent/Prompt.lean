import AgentRelay.Agent.Prompt
import AgentRelay.Proofs.Event.Context

/-!
# What a prompt is made of

A prompt is joined from parts, none of which is empty or has white space at its ends. When there are none, the
body that the event came in takes their place. A follow-up always has a part, and none of its parts is made of
anything that can be edited.

* `SessionStep.parts` are the parts, `parts_eq_nil_iff` says when there are none.
* `SessionStep.Agrees` are the steps that tell the agent the same, whatever else they carry.
* `SessionStep.prompt_resists_edits` puts together what a prompt depends on.
-/

namespace AgentRelay.SessionStep

variable {s t : SessionStep}

/-- The parts of a prompt. -/
def parts (s : SessionStep) : List String := (Text.filled? s.contextText).toList ++ s.requestParts

theorem prompt_of_parts (h : s.parts ≠ []) : s.prompt = "\n\n".intercalate s.parts := by
  unfold prompt
  split
  · rename_i hnil
    exact absurd hnil h
  · rfl

theorem prompt_of_nil (h : s.parts = []) : s.prompt = s.payloadText?.getD continueInstruction := by
  unfold prompt
  split
  · rfl
  · rename_i hne
    exact absurd h hne

/-! ### Steps without parts -/

/-- Only the body that the event came in can be told: the event is no prompt, and neither the prompt context
nor, where a session is created, its comment says anything. -/
def FallsBack (s : SessionStep) : Prop :=
  s.event.action ≠ .known .prompted ∧ Text.isBlankText s.event.session.promptContext = true ∧
    (s.event.action = .known .created → ∀ c ∈ s.event.session.comment, Text.isBlankText c.body = true)

theorem parts_eq_nil_iff : s.parts = [] ↔ s.FallsBack := by
  unfold parts contextText requestParts FallsBack
  match s.event.action with
  | .known .prompted => simp
  | .unknown name => simp [Text.filled?_eq_none_iff]
  | .known .created =>
    cases s.event.session.comment with
    | none => simp [Text.filled?_eq_none_iff]
    | some comment =>
      cases hbody : Text.filled? comment.body with
      | none => simp [Text.filled?_eq_none_iff, hbody, Text.filled?_eq_none_iff.1 hbody]
      | some body => simp [hbody, Text.isBlankText_of_filled? hbody]

/-! ### Neat prompts -/

theorem isNeat_continueInstruction : Text.IsNeat continueInstruction := by
  refine ⟨⟨'C', ?_, ?_⟩, ⟨'.', ?_, ?_⟩⟩ <;> decide

theorem isNeat_of_mem_requestParts {part : String} (h : part ∈ s.requestParts) : Text.IsNeat part := by
  unfold requestParts at h
  split at h
  · split at h
    · rename_i body hbody
      obtain ⟨comment, -, hcomment⟩ := Option.bind_eq_some_iff.1 hbody
      rw [List.mem_singleton.1 h]
      exact (Text.isNeat_of_filled? hcomment).behind ⟨'I', by decide, by decide⟩
    · cases h
  · rcases List.mem_append.1 h with h | h
    · split at h
      · rename_i body hbody
        obtain ⟨activity, -, hactivity⟩ := Option.bind_eq_some_iff.1 hbody
        rw [List.mem_singleton.1 h]
        exact (Text.isNeat_of_filled? hactivity).behind ⟨'F', by decide, by decide⟩
      · cases h
    · rw [List.mem_singleton.1 h]
      exact isNeat_continueInstruction
  · cases h

theorem isNeat_prompt (s : SessionStep) : Text.IsNeat s.prompt := by
  by_cases h : s.parts = []
  · rw [prompt_of_nil h]
    cases hpayload : s.payloadText? with
    | none => exact isNeat_continueInstruction
    | some text =>
      obtain ⟨payload, -, hpayload⟩ := Option.bind_eq_some_iff.1 hpayload
      split at hpayload
      · cases hpayload
      · exact Text.isNeat_of_filled? hpayload
  · rw [prompt_of_parts h]
    refine Text.isNeat_intercalate _ h ?_
    intro part hpart
    rcases List.mem_append.1 hpart with hpart | hpart
    · exact Text.isNeat_of_filled? (Option.mem_toList.1 hpart)
    · exact isNeat_of_mem_requestParts hpart

/-! ### What a prompt depends on -/

/-- Two follow-ups with the same prompt context and the same content. -/
structure Agrees (s t : SessionStep) : Prop where
  left : s.event.action = .known .prompted
  right : t.event.action = .known .prompted
  promptContext : s.event.session.promptContext = t.event.session.promptContext
  content : s.event.activity.map (·.content) = t.event.activity.map (·.content)

/-- They are asked the same by all that looks at the content alone. -/
theorem Agrees.bind_content (h : Agrees s t) (f : Content → Option String) :
    (s.event.activity.bind fun a => f a.content) = t.event.activity.bind fun a => f a.content := by
  have hcontent := congrArg (Option.bind · f) h.content
  simpa only [Option.bind_map, Function.comp_def] using hcontent

theorem Agrees.parts_eq (h : Agrees s t) : s.parts = t.parts := by
  have hreplayed : s.event.replayed [] = t.event.replayed [] := by
    rw [SessionEvent.replayed_nil, SessionEvent.replayed_nil, h.bind_content]
  have hrebuilt : s.event.promptContext [] = t.event.promptContext [] := by
    rw [SessionEvent.promptContext_eq, SessionEvent.promptContext_eq, hreplayed, h.promptContext]
  have hbody := h.bind_content fun c => Text.filled? c.body
  unfold parts contextText requestParts
  rw [h.left, h.right]
  simp only [hrebuilt, hbody, h.promptContext]

/-- A follow-up has parts. -/
theorem parts_ne_nil (h : s.event.action = .known .prompted) : s.parts ≠ [] := by
  intro hnil
  exact (parts_eq_nil_iff.1 hnil).1 h

/-- A body that tells something. -/
def digit : Payload := ⟨"1", by decide +kernel⟩

theorem prompt_of_digit (h : s.parts = []) : { s with payload := some digit }.prompt = "1" := by
  have htext : (if digit.isNull then none else Text.filled? digit.text) = some "1" := by decide +kernel
  rw [prompt_of_nil (s := { s with payload := some digit }) h]
  exact congrArg (Option.getD · continueInstruction) htext

/-- The body that the event came in tells in the prompt just when there is nothing else to tell. -/
theorem exists_payload_iff : (∃ payload, { s with payload }.prompt ≠ s.prompt) ↔ s.FallsBack := by
  rw [← parts_eq_nil_iff]
  -- the parts are made without the body
  have hparts (payload : Option Payload) : { s with payload }.parts = s.parts := rfl
  constructor
  · rintro ⟨payload, hprompt⟩
    by_contra hne
    rw [prompt_of_parts hne, prompt_of_parts (hparts payload ▸ hne), hparts] at hprompt
    exact hprompt rfl
  · intro hnil
    have hnone : { s with payload := none }.prompt = continueInstruction := prompt_of_nil hnil
    by_cases hprompt : s.prompt = "1"
    · refine ⟨none, ?_⟩
      rw [hnone, hprompt]
      decide
    · refine ⟨some digit, ?_⟩
      rw [prompt_of_digit hnil]
      exact Ne.symm hprompt

/-- **A follow-up resists edits.** Follow-ups that agree have the same prompt, whatever their comments, issues,
guidance, links, ids and bodies are. Every prompt says something and has no white space at its ends. And the
body that the event came in is told just in steps that fall back on it. -/
theorem prompt_resists_edits (s t : SessionStep) :
    (s.Agrees t → s.prompt = t.prompt) ∧
    s.prompt ≠ "" ∧ Text.trim s.prompt = s.prompt ∧
    ((∃ payload, { s with payload }.prompt ≠ s.prompt) ↔ s.FallsBack) := by
  refine ⟨?_, (isNeat_prompt s).ne_empty, (isNeat_prompt s).trim_eq, exists_payload_iff⟩
  intro h
  rw [prompt_of_parts (parts_ne_nil h.left), prompt_of_parts (parts_ne_nil h.right), h.parts_eq]

/-- A follow-up whose prompt says nothing. -/
def silentFollowUp : SessionStep :=
  { sessionId := "session", baseKey := "key", payload := none
    event := { action := .known .prompted, activity := some { content := { kind := .known .prompt, body := " \n" } } } }

/-- The same with a comment, another id of the activity and a body. -/
def editedFollowUp : SessionStep :=
  { sessionId := "other", baseKey := "key", payload := some digit
    event :=
      { action := .known .prompted, session := { comment := some { body := "edited" } }
        activity := some { id := "a", content := { kind := .known .prompt, body := " \n" } }
        previousComments := [{ body := "edited" }] } }

theorem prompt_resists_edits_silent :
    silentFollowUp.Agrees editedFollowUp ∧ silentFollowUp.prompt = editedFollowUp.prompt := by
  have hagrees : silentFollowUp.Agrees editedFollowUp := ⟨rfl, rfl, rfl, rfl⟩
  exact ⟨hagrees, (prompt_resists_edits silentFollowUp editedFollowUp).1 hagrees⟩

end AgentRelay.SessionStep
