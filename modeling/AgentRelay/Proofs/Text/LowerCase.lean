import AgentRelay.Text.Blank
import AgentRelay.Text.LowerCase
import Mathlib.Data.List.Infix

/-!
# Words in a text, whatever their case

The lower case of a text goes character by character but for the capital sigma, whose lower case depends
on what stands around it. So a word without a sigma that occurs in the lower case of a text still occurs
when more is put in front of the text or behind it.

* `foldSigma` takes the two small sigmas for one. Up to it, `lower` goes character by character
  (`map_foldSigma_lower`).
* `infix_lower_mono` is the law for words without a sigma.
-/

namespace AgentRelay.Text

theorem occursIn_iff {α : Type} [BEq α] [LawfulBEq α] {part whole : List α} :
    occursIn part whole = true ↔ part <:+: whole := by
  induction whole with
  | nil => simp [occursIn]
  | cons x xs ih => rw [occursIn, Bool.or_eq_true, List.isPrefixOf_iff_prefix, ih, List.infix_cons_iff]

/-- The small sigma, also for the one at the end of a word. -/
def foldSigma (c : Char) : Char := if c = 'ς' then 'σ' else c

/-- A text without a small sigma. -/
def HasNoSigma (cs : List Char) : Prop := ∀ c ∈ cs, c ≠ 'ς' ∧ c ≠ 'σ'

instance (cs : List Char) : Decidable (HasNoSigma cs) := List.decidableBAll _ cs

theorem foldSigma_lowerSigma (before after : List Char) : foldSigma (lowerSigma before after) = 'σ' := by
  unfold lowerSigma
  split <;> decide

theorem lowerChar_sigma : lowerChar 'Σ' = ['σ'] := by decide +kernel

theorem map_foldSigma_lowerFrom (before lowered cs : List Char) :
    (lowerFrom before lowered cs).map foldSigma =
      lowered.reverse.map foldSigma ++ (cs.flatMap lowerChar).map foldSigma := by
  induction cs generalizing before lowered with
  | nil => simp [lowerFrom]
  | cons c cs ih =>
    by_cases hc : c = 'Σ'
    · subst hc
      rw [lowerFrom, ih, List.flatMap_cons, lowerChar_sigma]
      simp [foldSigma_lowerSigma, show foldSigma 'σ' = 'σ' by decide]
    · rw [lowerFrom.eq_3 _ _ _ _ hc, ih, List.flatMap_cons]
      simp

/-- Up to the two small sigmas, lower case goes character by character. -/
theorem map_foldSigma_lower (cs : List Char) :
    (lower cs).map foldSigma = (cs.flatMap lowerChar).map foldSigma := map_foldSigma_lowerFrom [] [] cs

/-- A text whose characters are not folded. -/
theorem map_foldSigma_eq {cs : List Char} (h : ∀ c ∈ cs, c ≠ 'ς') : cs.map foldSigma = cs := by
  have hid : ∀ c ∈ cs, foldSigma c = id c := fun c hc => if_neg (h c hc)
  rw [List.map_congr_left hid, List.map_id]

/-- A word without a sigma is found in a text when it is found with the two small sigmas taken for one. -/
theorem HasNoSigma.infix_map_iff {word : List Char} (h : HasNoSigma word) (cs : List Char) :
    word <:+: cs.map foldSigma ↔ word <:+: cs := by
  constructor
  · rintro ⟨front, back, heq⟩
    obtain ⟨cs₁, cs₂, rfl, h₁, -⟩ := List.map_eq_append_iff.1 heq.symm
    obtain ⟨front', word', rfl, -, rfl⟩ := List.map_eq_append_iff.1 h₁
    -- no character of the word has become what it is
    have hword : ∀ c ∈ word', c ≠ 'ς' := by
      rintro c hc rfl
      exact (h _ (List.mem_map_of_mem hc)).2 rfl
    rw [map_foldSigma_eq hword]
    exact ⟨front', cs₂, rfl⟩
  · intro hinfix
    rw [← map_foldSigma_eq fun c hc => (h c hc).1]
    exact hinfix.map foldSigma

/-- Where a word without a sigma occurs in the lower case of a text, it occurs in that of every text
around it. -/
theorem HasNoSigma.infix_lower_mono {word part whole : List Char} (h : HasNoSigma word)
    (hpart : part <:+: whole) (hword : word <:+: lower part) : word <:+: lower whole := by
  rw [← h.infix_map_iff, map_foldSigma_lower] at hword ⊢
  obtain ⟨front, back, rfl⟩ := hpart
  simp only [List.flatMap_append, List.map_append]
  exact hword.trans (List.infix_append _ _ _)

end AgentRelay.Text
