import AgentRelay.Proofs.Diagnosis.Condense

/-!
# The three lines of a summary

A summary has a line for the category, one for the cause and one for the next step, as long as the cause is
on one line. It is when something is left of some line of the text. When nothing is left, the text stays as it
is, with all its lines.

* `IsFlattened` are the texts that are put on one line, `unbroken_condense_iff` says so.
* `isThreeLines_summary_iff` says when a summary is three lines.
-/

namespace AgentRelay.Diagnosis

/-- A text is three lines: a category, a cause and a next step. -/
def IsThreeLines (s : String) : Prop :=
  ∃ category cause step, Text.lines s = ["Category: " ++ category, "Cause: " ++ cause, "Next step: " ++ step]

theorem unbroken_category (c : Category) : '\n' ∉ ("Category: " ++ c.name).toList := by
  cases c <;> decide

theorem unbroken_step (c : Category) : '\n' ∉ ("Next step: " ++ c.remedy).toList := by
  cases c <;> decide +kernel

theorem getLast?_category (c : Category) : '\r' ∉ ("Category: " ++ c.name).toList.getLast? := by
  cases c <;> decide

theorem getLast?_condense (text : String) : ∀ c ∈ (condense text).toList.getLast?, Text.isBlank c = false := by
  by_cases hnil : parts text = []
  · rw [condense_eq_trim hnil]
    exact Text.getLast?_trim text
  · rw [condense_eq_intercalate hnil]
    exact (isTidy_intercalate hnil fun p hp => isTidy_of_mem_parts hp).last

/-- No carriage return stands at the end of the cause. -/
theorem getLast?_cause (text : String) : '\r' ∉ ("Cause: " ++ condense text).toList.getLast? := by
  have hkept := getLast?_condense text
  rw [String.toList_append, List.getLast?_append]
  cases hlast : (condense text).toList.getLast? with
  | none => decide
  | some c =>
    rintro ⟨⟩
    cases hkept _ hlast

/-- Something is left of some line of a text, or at most one line of it is not blank. -/
def IsFlattened (text : String) : Prop :=
  parts text ≠ [] ∨ ((Text.lines text).filterMap Text.filled?).length ≤ 1

theorem unbroken_condense_iff (text : String) : '\n' ∉ (condense text).toList ↔ IsFlattened text := by
  by_cases hnil : parts text = []
  · rw [condense_eq_trim hnil, Text.unbroken_trim_iff]
    exact ⟨.inr, fun h => h.resolve_left fun hne => hne hnil⟩
  · rw [condense_eq_intercalate hnil]
    exact iff_of_true (isTidy_intercalate hnil fun p hp => isTidy_of_mem_parts hp).unbroken (.inl hnil)

/-- The characters of a summary, line feed by line feed. -/
theorem toList_summary (f : Failure) : (summary f).toList =
    ("Category: " ++ (Category.ofFailure f).name).toList ++ '\n' ::
      (("Cause: " ++ condense f.text).toList ++ '\n' ::
        ("Next step: " ++ (Category.ofFailure f).remedy).toList) := by
  have hcause : "\nCause: ".toList = '\n' :: "Cause: ".toList := rfl
  have hstep : "\nNext step: ".toList = '\n' :: "Next step: ".toList := rfl
  simp only [summary, toString, String.toList_append, hcause, hstep, List.append_assoc, List.cons_append]

/-- A line feed in the cause is one line more. -/
theorem length_lines_summary (f : Failure) :
    (Text.lines (summary f)).length = (condense f.text).toList.count '\n' + 3 := by
  have hcategory := List.count_eq_zero_of_not_mem (unbroken_category (Category.ofFailure f))
  have hcause : ("Cause: " ++ condense f.text).toList.count '\n' = (condense f.text).toList.count '\n' := by
    rw [String.toList_append, List.count_append, List.count_eq_zero_of_not_mem (by decide), Nat.zero_add]
  rw [← String.ofList_toList (s := summary f), toList_summary, Text.length_lines_append,
    Text.length_lines_append, hcategory, hcause, Text.lines_unbroken (unbroken_step _) (by simp),
    List.length_singleton]
  omega

/-- With a cause on one line the summary is three lines. -/
theorem lines_summary {f : Failure} (h : '\n' ∉ (condense f.text).toList) :
    Text.lines (summary f) = ["Category: " ++ (Category.ofFailure f).name, "Cause: " ++ condense f.text,
      "Next step: " ++ (Category.ofFailure f).remedy] := by
  have hcause : '\n' ∉ ("Cause: " ++ condense f.text).toList := by
    rw [String.toList_append, List.mem_append]
    exact fun hmem => hmem.elim (by decide) h
  rw [← String.ofList_toList (s := summary f), toList_summary, Text.lines_break (unbroken_category _),
    Text.lines_break hcause, Text.lines_unbroken (unbroken_step _) (by simp),
    Text.dropLineEnd_of_getLast? (getLast?_category _), Text.dropLineEnd_of_getLast? (getLast?_cause _),
    String.ofList_toList, String.ofList_toList, String.ofList_toList]

/-- **When a summary is three lines.** It is just when its text has a line of which something is left, or no two
lines that are not blank. And that is when a condensed text has no line feed. -/
theorem isThreeLines_summary_iff (f : Failure) (text : String) :
    (IsThreeLines (summary f) ↔ IsFlattened f.text) ∧
    ('\n' ∉ (condense text).toList ↔ IsFlattened text) := by
  refine ⟨?_, unbroken_condense_iff text⟩
  rw [← unbroken_condense_iff]
  constructor
  · rintro ⟨category, cause, step, hlines⟩
    have hlength := length_lines_summary f
    rw [hlines] at hlength
    have hcount : (condense f.text).toList.count '\n' = 0 := by
      simp only [List.length_cons, List.length_nil] at hlength
      omega
    exact List.count_eq_zero.1 hcount
  · intro h
    exact ⟨_, _, _, lines_summary h⟩

/-- Of two lines that are nothing but exit codes both stay, and the summary has a line too many. -/
theorem not_isThreeLines_summary : ¬ ∀ f, IsThreeLines (summary f) := by
  intro h
  obtain ⟨category, cause, step, hlines⟩ := h (.note "exit status 1\nexit status 2")
  have hlength := length_lines_summary (.note "exit status 1\nexit status 2")
  have hcount : (condense (Failure.note "exit status 1\nexit status 2").text).toList.count '\n' = 1 := by
    decide +kernel
  rw [hlines, hcount] at hlength
  simp at hlength

end AgentRelay.Diagnosis
