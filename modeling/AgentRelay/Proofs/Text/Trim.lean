import AgentRelay.Job.Basic
import Mathlib.Data.List.DropRight
import Mathlib.Data.List.TakeWhile
import Mathlib.Tactic.Common

/-!
# Trimming

What is trimmed at its end ends in something that is kept. So a text in front of a trimmed one is
trimmed when it neither starts nor ends in white space, as the name space of idempotency keys does.

* `Bytes.dropEndWhile_eq_rdropWhile` is trimming at the end; `Bytes.dropEndWhile_append` and
  `Bytes.getLast?_dropEndWhile` say where it stops.
* `Text.trim_eq_empty_iff` and `Text.trim_append_trim` are trimming at both ends.
* `Identity.trim_key`: an idempotency key is trimmed.
-/

namespace AgentRelay

namespace Bytes

variable {α : Type} {p : α → Bool}

/-- Trimming at the end is `List.rdropWhile`, whose laws hold for it. -/
theorem dropEndWhile_eq_rdropWhile (p : α → Bool) (l : List α) : dropEndWhile p l = l.rdropWhile p := rfl

theorem dropEndWhile_append_of_pos {r : List α} (hr : ∀ x ∈ r, p x = true) (l : List α) :
    dropEndWhile p (l ++ r) = dropEndWhile p l := by
  rw [dropEndWhile, List.reverse_append, List.dropWhile_append_of_pos (by simpa using hr), ← dropEndWhile]

theorem dropEndWhile_append {l r : List α} (hl : ∀ x ∈ l.getLast?, p x = false)
    (hr : ∀ x ∈ r, p x = true) : dropEndWhile p (l ++ r) = l := by
  rw [dropEndWhile_append_of_pos hr, dropEndWhile_eq_rdropWhile, List.rdropWhile_eq_self_iff]
  intro hne
  simp [hl _ (List.getLast_mem_getLast? hne)]

/-- What is left ends in something that is kept. -/
theorem getLast?_dropEndWhile (p : α → Bool) (l : List α) :
    ∀ x ∈ (dropEndWhile p l).getLast?, p x = false := by
  intro x hx
  rw [dropEndWhile_eq_rdropWhile] at hx
  obtain ⟨hne, rfl⟩ := List.mem_getLast?_eq_getLast hx
  exact Bool.eq_false_iff.2 (List.rdropWhile_last_not p l hne)

end Bytes

namespace Text

theorem trimEnd_eq_rdropWhile (cs : List Char) : trimEnd cs = cs.rdropWhile isBlank := rfl

/-- A text without white space at its ends is trimmed. -/
theorem trim_eq_self {s : String} (hfirst : ∀ c ∈ s.toList.head?, isBlank c = false)
    (hlast : ∀ c ∈ s.toList.getLast?, isBlank c = false) : trim s = s := by
  have hstart : trimStart s.toList = s.toList := by
    unfold trimStart
    cases h : s.toList with
    | nil => rfl
    | cons c cs => simp [hfirst c (by simp [h])]
  have hend : trimEnd s.toList = s.toList := by
    rw [trimEnd]
    simpa using Bytes.dropEndWhile_append (r := []) hlast (by simp)
  rw [trim, trimChars, hstart, hend, String.ofList_toList]

theorem getLast?_trim (s : String) : ∀ c ∈ (trim s).toList.getLast?, isBlank c = false := by
  rw [trim, String.toList_ofList, trimChars, trimEnd]
  exact Bytes.getLast?_dropEndWhile isBlank _

/-- A trimmed text that is left begins with something that is kept. -/
theorem head?_trim (s : String) : ∀ c ∈ (trim s).toList.head?, isBlank c = false := by
  intro c hc
  have hstart : trimChars s.toList <+: trimStart s.toList := List.rdropWhile_prefix isBlank _
  rw [trim, String.toList_ofList] at hc
  have hhead : (trimStart s.toList).head? = some c := by
    obtain ⟨rest, hrest⟩ := hstart
    rw [← hrest, List.head?_append, Option.mem_def.1 hc]
    rfl
  have hkept := List.head?_dropWhile_not isBlank s.toList
  rw [trimStart] at hhead
  rw [hhead] at hkept
  simpa using hkept

/-- What is trimmed is trimmed. -/
theorem trim_trim (s : String) : trim (trim s) = trim s := trim_eq_self (head?_trim s) (getLast?_trim s)

/-- Nothing is left of a blank text, and of no other. -/
theorem trim_eq_empty_iff {s : String} : trim s = "" ↔ isBlankText s = true := by
  have hchars : trim s = "" ↔ trimChars s.toList = [] := by
    rw [trim, ← String.toList_inj, String.toList_ofList]
    rfl
  rw [hchars, trimChars, trimEnd_eq_rdropWhile, List.rdropWhile_eq_nil_iff, isBlankText, List.all_eq_true, trimStart]
  constructor
  -- anything that is left at the start would begin with a character that is kept
  · intro h
    refine List.dropWhile_eq_nil_iff.1 (List.eq_nil_iff_forall_not_mem.2 fun c hc => ?_)
    obtain ⟨first, rest, hfirst⟩ := List.exists_cons_of_ne_nil (List.ne_nil_of_mem hc)
    have hkept := List.head?_dropWhile_not isBlank s.toList
    rw [hfirst] at h hkept
    simp [h first (by simp)] at hkept
  · intro h
    rw [List.dropWhile_eq_nil_iff.2 h]
    simp

theorem filled?_eq_none_iff {s : String} : filled? s = none ↔ isBlankText s = true := by
  unfold filled?
  split <;> simp [*]

/-- A text that is not blank is trimmed and begins with something that is kept. -/
theorem filled?_eq_some {s t : String} (h : filled? s = some t) :
    t = trim s ∧ ∃ c cs, t.toList = c :: cs ∧ isBlank c = false := by
  unfold filled? at h
  split at h
  · cases h
  · rename_i hblank
    cases h
    refine ⟨rfl, ?_⟩
    cases hchars : (trim s).toList with
    | nil => exact absurd (trim_eq_empty_iff.1 (String.toList_eq_nil_iff.1 hchars)) hblank
    | cons c cs => exact ⟨c, cs, rfl, head?_trim s c (by simp [hchars])⟩

/-- What is filled stays as it is. -/
theorem filled?_filled? {s t : String} (h : filled? s = some t) : filled? t = some t := by
  obtain ⟨rfl, c, cs, hcs, hc⟩ := filled?_eq_some h
  have hblank : isBlankText (trim s) = false := by simp [isBlankText, hcs, hc]
  rw [filled?, hblank, trim_trim]
  rfl

/-- A filled text is not blank. -/
theorem isBlankText_of_filled? {s t : String} (h : filled? s = some t) :
    isBlankText s = false := by
  unfold filled? at h
  split at h
  · cases h
  · rename_i hblank
    simpa using hblank

theorem isEmpty_of_filled? {s t : String} (h : filled? s = some t) : t.isEmpty = false := by
  obtain ⟨-, c, cs, hcs, -⟩ := filled?_eq_some h
  rw [Bool.eq_false_iff, Ne, String.isEmpty_iff]
  rintro rfl
  cases hcs

/-- A text without white space is filled. -/
theorem filled?_eq_self {s : String} (hs : s.toList ≠ []) (h : ∀ c ∈ s.toList, isBlank c = false) :
    filled? s = some s := by
  obtain ⟨c, cs, hcs⟩ := List.exists_cons_of_ne_nil hs
  have hblank : isBlankText s = false := by simp [isBlankText, hcs, h c (by simp [hcs])]
  have htrim : trim s = s :=
    trim_eq_self (fun c hc => h c (List.mem_of_head? hc)) fun c hc => h c (List.mem_of_getLast? hc)
  rw [filled?, hblank, htrim]
  rfl

theorem isBlank_getLast? {s : String} {c : Char} (hs : s.toList.getLast? = some c)
    (hc : isBlank c = false) : ∀ c ∈ s.toList.getLast?, isBlank c = false := by
  rintro x hx
  rw [hs] at hx
  obtain rfl := Option.some.inj hx
  exact hc

/-- Two texts without white space at their ends have none at the end of the whole. -/
theorem getLast?_append {s t : String} (hs : ∀ c ∈ s.toList.getLast?, isBlank c = false)
    (ht : ∀ c ∈ t.toList.getLast?, isBlank c = false) :
    ∀ c ∈ (s ++ t).toList.getLast?, isBlank c = false := by
  rw [String.toList_append, List.getLast?_append]
  -- the text in front ends the whole when nothing is left of the other
  cases h : t.toList.getLast? with
  | none => simpa using hs
  | some c => simpa [h] using ht

/-- A trimmed text stays trimmed behind one without white space at its ends. -/
theorem trim_append_trim {s : String} (hs : s.toList ≠ [])
    (hfirst : ∀ c ∈ s.toList.head?, isBlank c = false)
    (hlast : ∀ c ∈ s.toList.getLast?, isBlank c = false) (t : String) :
    trim (s ++ trim t) = s ++ trim t := by
  refine trim_eq_self ?_ ?_
  · obtain ⟨c, cs, hc⟩ := List.exists_cons_of_ne_nil hs
    rw [hc] at hfirst
    rwa [String.toList_append, hc]
  · exact getLast?_append hlast (getLast?_trim t)

end Text

namespace Identity

/-- An idempotency key is trimmed. -/
theorem trim_key (step : String) : Text.trim (key step) = key step := by
  refine Text.trim_append_trim (by decide) ?_ ?_ step
  · rintro c ⟨⟩
    decide
  · rintro c ⟨⟩
    decide

theorem key_ne_empty (step : String) : key step ≠ "" := by
  intro h
  have hlength := congrArg String.length h
  simp [key, keySpace] at hlength

end Identity
end AgentRelay
