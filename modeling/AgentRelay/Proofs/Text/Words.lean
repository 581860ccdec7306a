import AgentRelay.Proofs.Text.Trim

/-!
# Words

The words of a text are its longest runs without white space. The first of them is found by dropping the
white space in front and taking what stands before the next.

* `piecesAfter_append_cons` cuts off the first piece, `piecesAfter_eq_singleton` says when it is the last.
* `head?_words` is the first word, `filled?_of_mem_words` says that trimming leaves every word alone.
-/

namespace AgentRelay.Text

/-! ### Pieces -/

section

variable {α : Type} {p : α → Bool}

theorem piecesAfter_go (l cur : List α) (done : List (List α)) :
    piecesAfter.go p l cur done = done.reverse ++ piecesAfter.go p l cur [] := by
  induction l generalizing cur done with
  | nil => cases cur <;> simp [piecesAfter.go]
  | cons x l ih =>
    unfold piecesAfter.go
    split
    · rw [ih, ih _ [(x :: cur).reverse]]
      simp
    · exact ih _ _

/-- Elements that end no piece go to the piece that has been begun. -/
theorem piecesAfter_go_append {l : List α} (h : ∀ x ∈ l, p x = false) (rest cur : List α)
    (done : List (List α)) :
    piecesAfter.go p (l ++ rest) cur done = piecesAfter.go p rest (l.reverse ++ cur) done := by
  induction l generalizing cur with
  | nil => rfl
  | cons x l ih =>
    rw [List.cons_append, piecesAfter.go, if_neg (by simp [h x (by simp)]),
      ih fun y hy => h y (by simp [hy])]
    simp

/-- A piece that is not ended is the last one. -/
theorem piecesAfter_eq_singleton {l : List α} (hne : l ≠ []) (h : ∀ x ∈ l, p x = false) :
    piecesAfter p l = [l] := by
  have hgo := piecesAfter_go_append h [] [] []
  rw [List.append_nil, List.append_nil] at hgo
  rw [piecesAfter, hgo]
  cases hrev : l.reverse with
  | nil => simp_all
  | cons y ys =>
    rw [piecesAfter.go, ← hrev, List.reverse_reverse]
    · rfl
    · simp

/-- A piece ends with the first element that ends pieces. -/
theorem piecesAfter_append_cons {l : List α} (h : ∀ x ∈ l, p x = false) {x : α} (hx : p x = true)
    (rest : List α) : piecesAfter p (l ++ x :: rest) = (l ++ [x]) :: piecesAfter p rest := by
  rw [piecesAfter, piecesAfter_go_append h, piecesAfter.go, if_pos hx, piecesAfter_go]
  simp [piecesAfter]

end

/-! ### Words -/

/-- The first word of a text, empty when there is none. -/
def firstWord (s : String) : String := String.ofList ((trimStart s.toList).takeWhile (!isBlank ·))

/-- The word of a piece, unless the piece is all white space. -/
def wordOf? (l : List Char) : Option String :=
  let w := l.filter (!isBlank ·)
  if w.isEmpty then none else some (String.ofList w)

/-- The words among characters. -/
def wordsOf (cs : List Char) : List String := (piecesAfter isBlank cs).filterMap wordOf?

theorem words_eq (s : String) : words s = wordsOf s.toList := rfl

theorem wordOf?_of_kept {l : List Char} (hne : l ≠ []) (h : ∀ c ∈ l, isBlank c = false) :
    wordOf? l = some (String.ofList l) := by
  have hkeep : l.filter (!isBlank ·) = l := List.filter_eq_self.2 fun c hc => by simp [h c hc]
  simp only [wordOf?, hkeep, List.isEmpty_eq_false_iff.2 hne]
  rfl

/-- The white space at the end of a piece is not part of its word. -/
theorem wordOf?_concat {c : Char} (hc : isBlank c = true) (l : List Char) :
    wordOf? (l ++ [c]) = wordOf? l := by
  have hfilter : (l ++ [c]).filter (!isBlank ·) = l.filter (!isBlank ·) := by simp [hc]
  rw [wordOf?, hfilter, wordOf?]

theorem wordsOf_blank_cons {c : Char} (hc : isBlank c = true) (cs : List Char) :
    wordsOf (c :: cs) = wordsOf cs := by
  have hcut : piecesAfter isBlank (c :: cs) = [c] :: piecesAfter isBlank cs :=
    piecesAfter_append_cons (l := []) (by simp) hc cs
  rw [wordsOf, hcut, List.filterMap_cons_none]
  · rfl
  · exact wordOf?_concat hc []

/-- White space in front does not count. -/
theorem wordsOf_trimStart (cs : List Char) : wordsOf (trimStart cs) = wordsOf cs := by
  induction cs with
  | nil => rfl
  | cons c cs ih =>
    rw [trimStart, List.dropWhile_cons]
    split
    · rename_i hc
      rw [wordsOf_blank_cons hc]
      exact ih
    · rfl

/-- The first word is what stands before the first white space. -/
theorem head?_wordsOf {c : Char} (hc : isBlank c = false) (cs : List Char) :
    (wordsOf (c :: cs)).head? = some (String.ofList ((c :: cs).takeWhile (!isBlank ·))) := by
  have hword : ∀ d ∈ (c :: cs).takeWhile (!isBlank ·), isBlank d = false := fun d hd => by
    simpa using List.mem_takeWhile_imp hd
  have hne : (c :: cs).takeWhile (!isBlank ·) ≠ [] := by simp [hc]
  have hsplit := List.takeWhile_append_dropWhile (p := (!isBlank ·)) (l := c :: cs)
  generalize (c :: cs).takeWhile (!isBlank ·) = word at hword hne hsplit ⊢
  have hfirst := wordOf?_of_kept hne hword
  cases hrest : (c :: cs).dropWhile (!isBlank ·) with
  | nil =>
    rw [hrest, List.append_nil] at hsplit
    rw [wordsOf, ← hsplit, piecesAfter_eq_singleton hne hword, List.filterMap_cons_some hfirst]
    rfl
  | cons d rest =>
    have hd : isBlank d = true := by
      have hhead := List.head?_dropWhile_not (!isBlank ·) (c :: cs)
      rw [hrest] at hhead
      simpa using hhead
    rw [hrest] at hsplit
    rw [wordsOf, ← hsplit, piecesAfter_append_cons hword hd,
      List.filterMap_cons_some ((wordOf?_concat hd word).trans hfirst)]
    rfl

/-- The first word of a text that has one. -/
theorem head?_words {s : String} (h : isBlankText s = false) :
    (words s).head? = some (firstWord s) := by
  cases hstart : trimStart s.toList with
  | nil =>
    rw [trimStart, List.dropWhile_eq_nil_iff] at hstart
    rw [isBlankText, List.all_eq_true.2 hstart] at h
    cases h
  | cons c cs =>
    have hc : isBlank c = false := by
      have hhead := List.head?_dropWhile_not isBlank s.toList
      rw [← trimStart, hstart] at hhead
      simpa using hhead
    rw [words_eq, ← wordsOf_trimStart, hstart, head?_wordsOf hc, firstWord, hstart]

/-- There is nothing to trim off a word. -/
theorem filled?_of_mem_words {s w : String} (h : w ∈ words s) : filled? w = some w := by
  obtain ⟨l, -, hl⟩ := List.mem_filterMap.1 h
  have hkept : ∀ c ∈ l.filter (!isBlank ·), isBlank c = false := fun c hc => by
    simpa using (List.mem_filter.1 hc).2
  generalize l.filter (!isBlank ·) = cs at hl hkept
  cases cs with
  | nil => simp at hl
  | cons c cs =>
    obtain rfl : String.ofList (c :: cs) = w := by simpa using hl
    exact filled?_eq_self (by simp) fun d hd => hkept d (by simpa using hd)

end AgentRelay.Text
