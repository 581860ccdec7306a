import AgentRelay.Event.Rules
import AgentRelay.Proofs.Json.Invariant

/-!
# Values that are the ones their names stand for

A value on the wire is a name. Whatever is read is the value that its name stands for; a value that
spells a known name without being it can only be made by hand, and would not survive being written
and read.

* `IsNamed` for events and the parts of them that carry names.
* `gives_isNamed` in each name space: what is read is named. `SessionEvent.isNamed_of_check`: so is
  every event that the rules accept.
-/

namespace AgentRelay

open Json

namespace WireName

variable {κ : Type} [Vocabulary κ]

theorem isNamed_ofName (s : String) : (ofName s : WireName κ).IsNamed := by
  rw [IsNamed, name_ofName]

/-- The known values are the ones their names stand for. -/
theorem isNamed_of_isKnown {w : WireName κ} (h : w.isKnown = true) : w.IsNamed := by
  cases w with
  | known value => rw [IsNamed, name, ofName, Vocabulary.find?_spelling]
  | unknown name => cases h

end WireName

namespace Content

/-- The kind is the one its name stands for. -/
def IsNamed (c : Content) : Prop := c.kind.IsNamed

theorem gives_isNamed : Gives reader IsNamed := by
  refine gives_record "ActivityContent" (show Content.IsNamed {} from WireName.isNamed_ofName "") ?_
  simp only [fields, List.forall_mem_cons]
  refine ⟨?_, ?_, ?_, ?_, ?_, by simp⟩
  · exact keeps_other fun name _ _ => WireName.isNamed_ofName name
  all_goals exact keeps_other fun _ _ h => h

/-- The rules for content accept known kinds alone. -/
theorem isNamed_of_check {c : Content} (h : c.check = .ok ()) : c.IsNamed := by
  refine WireName.isNamed_of_isKnown ?_
  unfold check at h
  split at h
  · simp_all [WireName.isKnown]
  · cases h
  · rename_i hkind
    cases hk : c.kind with
    | unknown name => exact absurd hk (hkind name)
    | known value => rfl

end Content

namespace Activity

/-- The kind of the content is the one its name stands for. -/
def IsNamed (a : Activity) : Prop := a.content.IsNamed

theorem gives_isNamed : Gives reader IsNamed := by
  refine gives_record "AgentActivity" (show Activity.IsNamed {} from WireName.isNamed_ofName "") ?_
  simp only [fields, List.forall_mem_cons]
  refine ⟨?_, ?_, by simp⟩
  · exact keeps_other fun _ _ h => h
  · exact keeps_field Content.gives_isNamed fun _ _ h _ => h

end Activity

namespace Session

/-- The state is the one its name stands for. -/
def IsNamed (s : Session) : Prop := s.state.IsNamed

theorem gives_isNamed : Gives reader IsNamed := by
  refine gives_record "AgentSession" (show Session.IsNamed {} from WireName.isNamed_ofName "") ?_
  simp only [fields, List.forall_mem_cons]
  refine ⟨?_, ?_, ?_, ?_, ?_, ?_, ?_, by simp⟩
  · exact keeps_other fun _ _ h => h
  · exact keeps_other fun name _ _ => WireName.isNamed_ofName name
  all_goals exact keeps_other fun _ _ h => h

end Session

namespace SessionEvent

/-- The names in the event stand for its values. -/
structure IsNamed (e : SessionEvent) : Prop where
  action : e.action.IsNamed
  session : e.session.IsNamed
  activity : ∀ a ∈ e.activity, a.IsNamed

theorem isNamed_default : IsNamed {} :=
  ⟨WireName.isNamed_ofName "", WireName.isNamed_ofName "", by simp⟩

theorem gives_isNamed : Gives reader IsNamed := by
  refine gives_record "AgentSessionEvent" isNamed_default ?_
  simp only [fields, List.forall_mem_cons]
  refine ⟨?_, ?_, ?_, ?_, ?_, ?_, ?_, ?_, by simp⟩
  · exact keeps_other fun _ _ h => ⟨h.action, h.session, h.activity⟩
  · exact keeps_other fun _ _ h => ⟨h.action, h.session, h.activity⟩
  · exact keeps_other fun name _ h => ⟨WireName.isNamed_ofName name, h.session, h.activity⟩
  · exact keeps_other fun _ _ h => ⟨h.action, h.session, h.activity⟩
  · exact keeps_other fun _ _ h => ⟨h.action, h.session, h.activity⟩
  · exact keeps_field Session.gives_isNamed fun _ _ hs h => ⟨h.action, hs, h.activity⟩
  · exact keeps_field (gives_nullable Activity.gives_isNamed) fun _ _ ha h =>
      ⟨h.action, h.session, ha⟩
  · exact keeps_other fun _ _ h => ⟨h.action, h.session, h.activity⟩

/-- What the rules for events accept. -/
theorem check_eq_ok {e : SessionEvent} (h : e.check = .ok ()) :
    e.payloadVersion = AgentRelay.payloadVersion ∧ e.action.isKnown = true ∧
      e.session.state.isKnown = true ∧ (e.isPrompted = true → e.hasPrompt = true) ∧
      ∀ a ∈ e.activity, a.content.check = .ok () := by
  unfold check at h
  split_ifs at h with hversion haction hstate hprompt
  refine ⟨not_not.1 hversion, by simpa using haction, by simpa using hstate, by simpa using hprompt, ?_⟩
  intro a ha
  rw [Option.mem_def.1 ha] at h
  cases hc : a.content.check with
  | ok u => rfl
  | error e => simp [hc, Except.mapError] at h

/-- An accepted event is named. -/
theorem isNamed_of_check {e : SessionEvent} (h : e.check = .ok ()) : e.IsNamed := by
  obtain ⟨-, haction, hstate, -, hcontent⟩ := check_eq_ok h
  exact ⟨WireName.isNamed_of_isKnown haction, WireName.isNamed_of_isKnown hstate,
    fun a ha => Content.isNamed_of_check (hcontent a ha)⟩

/-- A body that is decoded holds an event that the rules accept. -/
theorem decode_eq_ok {body : Bytes} {e : SessionEvent} (h : decode body = .ok e) :
    readAll reader body = .ok e ∧ e.check = .ok () := by
  unfold decode at h
  split at h
  · cases h
  · split at h
    · cases h
    · cases h
      exact ⟨‹_›, ‹_›⟩

end SessionEvent
end AgentRelay
