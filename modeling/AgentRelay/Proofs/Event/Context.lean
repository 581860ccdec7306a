import AgentRelay.Event.Basic
import AgentRelay.Proofs.Text.Joined

/-!
# Replayed activities

The context of a turn is a record of activities that only grows. An activity that has nothing to tell leaves
no trace in it, not even a number, and the activity of the event itself is told as the last of those before it.

* `Content.IsSilent` are the contents with nothing to tell, `Activity.heard` the activities that are told.
* `Activity.Recounts` are the entries of activities in order, `recounts_numbered` says that they are written.
* `SessionEvent.promptContext_eq` is the context as joined parts.
* `SessionEvent.replay_appends` puts the laws of the context together.
-/

namespace AgentRelay

/-! ### What is told -/

namespace Content

/-- A text that is needed is blank: the label or the parameter of an action, the body of all else. -/
def IsSilent (c : Content) : Prop :=
  if c.kind = .known .action then Text.isBlankText c.action = true ∨ Text.isBlankText c.parameter = true
  else Text.isBlankText c.body = true

instance (c : Content) : Decidable c.IsSilent := inferInstanceAs (Decidable (ite _ _ _))

/-- Silent contents have no line, and no others. -/
theorem line?_eq_none_iff {c : Content} : c.line? = none ↔ c.IsSilent := by
  unfold IsSilent
  by_cases haction : c.kind = .known .action
  · rw [if_pos haction, ← Text.filled?_eq_none_iff, ← Text.filled?_eq_none_iff, line?, haction]
    cases Text.filled? c.action with
    | none => simp
    | some label =>
      cases Text.filled? c.parameter with
      | none => simp
      | some parameter => cases c.result.bind Text.filled? <;> simp
  · have hline : c.line? = (Text.filled? c.body).map fun body => c.kind.name ++ ": " ++ body := by
      unfold line?
      split
      · contradiction
      · rfl
    rw [if_neg haction, hline, Option.map_eq_none_iff, Text.filled?_eq_none_iff]

end Content

/-- Numbering goes by the place of a line. -/
theorem SessionEvent.numbered_eq_mapIdx (n : Nat) (lines : List String) :
    numbered n lines = lines.mapIdx fun i line => toString (i + n) ++ ". " ++ line := by
  induction lines generalizing n with
  | nil => rfl
  | cons line lines ih =>
    rw [numbered, ih, List.mapIdx_cons, Nat.zero_add]
    simp only [Nat.add_assoc, Nat.add_comm 1]

namespace Activity

/-- The activities that have something to tell. -/
def heard (activities : List Activity) : List Activity := activities.filter fun a => ¬ a.content.IsSilent

/-- The activities that are told are those with a line. -/
theorem map_line?_heard (activities : List Activity) :
    (heard activities).map (·.content.line?) = (activities.filterMap (·.content.line?)).map some := by
  rw [List.map_filterMap_some_eq_filter_map_isSome, List.filter_map, heard]
  congr 2
  funext a
  have hline := a.content.line?_eq_none_iff
  cases h : a.content.line? <;> simp_all

/-- One entry for each activity, in order and numbered from one. -/
def Recounts (entries : List String) (activities : List Activity) : Prop :=
  entries.length = activities.length ∧
  ∀ i a, activities[i]? = some a →
    ∃ line, a.content.line? = some line ∧ entries[i]? = some (toString (i + 1) ++ ". " ++ line)

/-- The numbered lines of activities are their entries. -/
theorem recounts_numbered (activities : List Activity) :
    Recounts (SessionEvent.numbered 1 (activities.filterMap (·.content.line?))) (heard activities) := by
  have hlines := map_line?_heard activities
  generalize heard activities = told at hlines
  generalize activities.filterMap (·.content.line?) = lines at hlines
  rw [SessionEvent.numbered_eq_mapIdx]
  constructor
  · have hlength := congrArg List.length hlines
    rw [List.length_map, List.length_map] at hlength
    rw [List.length_mapIdx, hlength]
  · intro i a ha
    have hline : lines[i]?.map some = some a.content.line? := by
      rw [← List.getElem?_map, ← hlines, List.getElem?_map, ha]
      rfl
    obtain ⟨line, hi, hline⟩ := Option.map_eq_some_iff.1 hline
    refine ⟨line, hline.symm, ?_⟩
    rw [List.getElem?_mapIdx, hi]
    rfl

end Activity

/-! ### Parts of a context -/

namespace SessionEvent

/-- Nothing before the event: its own activity alone is told. -/
theorem replayed_nil (e : SessionEvent) : e.replayed [] = (e.activity.bind fun a => a.content.line?).toList := by
  unfold replayed
  cases e.activity with
  | none => rfl
  | some a => cases h : a.content.line? <;> simp [h]

/-- The parts of a context: the prompt context, and entries under a heading. -/
def contextParts (base : String) (entries : List String) : List String :=
  (if base = "" then [] else [base]) ++
    if entries = [] then [] else "Conversation activities:" :: entries

theorem contextParts_prefix (base : String) {entries more : List String} (h : entries <+: more) :
    contextParts base entries <+: contextParts base more := by
  rw [contextParts, contextParts, List.prefix_append_right_inj]
  by_cases hentries : entries = []
  · rw [if_pos hentries]
    exact List.nil_prefix
  · have hmore : more ≠ [] := by
      rintro rfl
      exact hentries (List.prefix_nil.1 h)
    rw [if_neg hentries, if_neg hmore]
    exact List.cons_prefix_cons.2 ⟨rfl, h⟩

/-- A context is its parts, line by line. -/
theorem promptContext_eq (e : SessionEvent) (prior : List Activity) : e.promptContext prior =
    "\n".intercalate (contextParts (Text.trim e.session.promptContext) (numbered 1 (e.replayed prior))) := by
  unfold promptContext contextParts
  cases e.replayed prior with
  | nil => by_cases hbase : Text.trim e.session.promptContext = "" <;> simp [numbered, hbase]
  | cons line lines => simp [numbered]

/-- What more activities do to the context of a turn. -/
structure Replays (e : SessionEvent) (prior more : List Activity) : Prop where
  /-- The activity of the event is told as the last of those before it. -/
  last : e.promptContext prior = { e with activity := none }.promptContext (prior ++ e.activity.toList)
  /-- Without it, more activities continue the context. -/
  continues : e.activity = none →
    (e.promptContext prior).toList <+: (e.promptContext (prior ++ more)).toList
  /-- A silent activity changes nothing, wherever it stands. -/
  silent : ∀ front back a, prior = front ++ back → a.content.IsSilent →
    e.promptContext (front ++ a :: back) = e.promptContext prior
  /-- There is an entry for each activity with something to tell, in order and numbered from one. -/
  entries : ∃ entries, Activity.Recounts entries (Activity.heard (prior ++ e.activity.toList)) ∧
    e.promptContext prior = "\n".intercalate (contextParts (Text.trim e.session.promptContext) entries)

/-- **Replaying only appends.** The activity of the event is told as the last of those before it. Without it,
more activities continue the context. A silent activity changes nothing, wherever it stands. And a context is the
trimmed prompt context and, under a heading, an entry for each activity with something to tell, in order and
numbered from one. -/
theorem replay_appends (e : SessionEvent) (prior more : List Activity) : e.Replays prior more := by
  refine ⟨?_, ?_, ?_, ?_⟩
  · have hlines : e.replayed prior = { e with activity := none }.replayed (prior ++ e.activity.toList) := by
      simp only [replayed, Option.toList_none, List.append_nil]
    rw [promptContext_eq, promptContext_eq, hlines]
  · intro hactivity
    have hlines : e.replayed (prior ++ more) = e.replayed prior ++ more.filterMap (·.content.line?) := by
      simp only [replayed, hactivity, Option.toList_none, List.append_nil, List.filterMap_append]
    rw [promptContext_eq, promptContext_eq, hlines]
    apply Text.intercalate_prefix
    apply contextParts_prefix
    -- the numbers of the lines before do not depend on those behind
    rw [numbered_eq_mapIdx, numbered_eq_mapIdx, List.mapIdx_append]
    exact List.prefix_append _ _
  · rintro front back a rfl hsilent
    have hnone : a.content.line? = none := Content.line?_eq_none_iff.2 hsilent
    have hlines : e.replayed (front ++ a :: back) = e.replayed (front ++ back) := by
      simp only [replayed, List.append_assoc, List.cons_append, List.filterMap_append, List.filterMap_cons, hnone]
    rw [promptContext_eq, promptContext_eq, hlines]
  · exact ⟨_, Activity.recounts_numbered _, promptContext_eq e prior⟩

/-- A thought that has nothing to say. -/
def blankThought : Activity := { content := { kind := .known .thought, body := " \n" } }

/-- An action that has no result. -/
def bareAction : Activity := { content := { kind := .known .action, action := "run", parameter := "cargo test " } }

theorem replay_appends_bareAction :
    ({} : SessionEvent).promptContext ([bareAction] ++ blankThought :: [bareAction]) =
        ({} : SessionEvent).promptContext ([bareAction] ++ [bareAction]) ∧
      (({} : SessionEvent).promptContext [bareAction]).toList <+:
        (({} : SessionEvent).promptContext ([bareAction] ++ [blankThought, bareAction])).toList :=
  ⟨(replay_appends {} ([bareAction] ++ [bareAction]) []).silent _ _ _ rfl (by decide),
    (replay_appends {} [bareAction] [blankThought, bareAction]).continues rfl⟩

end SessionEvent
end AgentRelay
