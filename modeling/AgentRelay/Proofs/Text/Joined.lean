import AgentRelay.Proofs.Text.Trim

/-!
# Joined texts

A text that is joined from parts with a separator grows at its end when parts are added, and shows at its own
ends only the ends of its first and its last part.

* `intercalate_prefix` is the law for added parts, `intercalate_induction` the one for what joining keeps.
* `IsNeat` are the texts that trimming leaves alone and that are not empty, `isNeat_intercalate` says that neat
  parts are joined to a neat text.
-/

namespace AgentRelay.Text

/-- More parts behind others continue the joined text. -/
theorem intercalate_prefix (separator : String) {parts more : List String} (h : parts <+: more) :
    (separator.intercalate parts).toList <+: (separator.intercalate more).toList := by
  obtain ⟨rest, rfl⟩ := h
  by_cases hparts : parts = []
  · rw [hparts, String.intercalate_nil]
    exact List.nil_prefix
  by_cases hrest : rest = []
  · simp [hrest]
  · rw [String.intercalate_append_of_ne_nil hparts hrest, String.append_assoc, String.toList_append]
    exact List.prefix_append _ _

/-- What two texts joined with the separator keep, all parts joined keep. -/
theorem intercalate_induction {P : String → Prop} {separator : String} {parts : List String}
    (join : ∀ s t, P s → P t → P (s ++ separator ++ t)) (hne : parts ≠ []) (h : ∀ part ∈ parts, P part) :
    P (separator.intercalate parts) := by
  induction parts with
  | nil => contradiction
  | cons part parts ih =>
    have hpart := h part List.mem_cons_self
    cases parts with
    | nil => rwa [String.intercalate_singleton]
    | cons next parts =>
      rw [String.intercalate_cons_cons]
      apply join
      · exact hpart
      · exact ih (by simp) fun p hp => h p (List.mem_cons_of_mem _ hp)

/-- Not empty, and without white space at its ends. -/
structure IsNeat (s : String) : Prop where
  first : ∃ c ∈ s.toList.head?, isBlank c = false
  last : ∃ c ∈ s.toList.getLast?, isBlank c = false

namespace IsNeat

variable {s t : String}

theorem ne_empty (h : IsNeat s) : s ≠ "" := by
  rintro rfl
  obtain ⟨c, hc, -⟩ := h.first
  cases hc

theorem trim_eq (h : IsNeat s) : trim s = s := by
  obtain ⟨c, hfirst, hc⟩ := h.first
  obtain ⟨d, hlast, hd⟩ := h.last
  refine trim_eq_self ?_ (isBlank_getLast? hlast hd)
  intro x hx
  rw [hfirst] at hx
  obtain rfl := Option.some.inj hx
  exact hc

/-- A neat text stays neat behind a text that begins like one. -/
theorem behind (hs : ∃ c ∈ s.toList.head?, isBlank c = false) (ht : IsNeat t) : IsNeat (s ++ t) := by
  obtain ⟨c, hfirst, hc⟩ := hs
  obtain ⟨d, hlast, hd⟩ := ht.last
  refine ⟨⟨c, ?_, hc⟩, d, ?_, hd⟩
  · rw [String.toList_append, List.head?_append, hfirst]
    rfl
  · rw [String.toList_append, List.getLast?_append, hlast]
    rfl

end IsNeat

theorem isNeat_of_filled? {s t : String} (h : filled? s = some t) : IsNeat t := by
  obtain ⟨rfl, c, cs, hcs, hc⟩ := filled?_eq_some h
  have hlast : (trim s).toList.getLast? = some ((c :: cs).getLast (List.cons_ne_nil c cs)) := by
    rw [hcs]
    exact List.getLast?_eq_some_getLast _
  refine ⟨⟨c, ?_, hc⟩, _, hlast, getLast?_trim s _ hlast⟩
  rw [hcs]
  rfl

/-- Neat parts are joined to a neat text. -/
theorem isNeat_intercalate (separator : String) {parts : List String} (hne : parts ≠ [])
    (h : ∀ part ∈ parts, IsNeat part) : IsNeat (separator.intercalate parts) := by
  refine intercalate_induction ?_ hne h
  intro s t hs ht
  obtain ⟨c, hfirst, hc⟩ := hs.first
  refine ht.behind ⟨c, ?_, hc⟩
  rw [String.toList_append, List.head?_append, hfirst]
  rfl

end AgentRelay.Text
