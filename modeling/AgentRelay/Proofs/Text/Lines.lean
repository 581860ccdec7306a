import AgentRelay.Proofs.Text.Words

/-!
# Lines

What is gathered from the lines of a text, when white space around a line does not count and a blank line
gives nothing. A line feed then cuts the text in two that are gathered from one after the other, and white
space around the whole does not count either.

* `lines_induction` goes through a text line by line.
* `IgnoresBlank` are the ways to look at a line, `IgnoresBlank.lines_append` and `IgnoresBlank.lines_trim` the
  laws of what is gathered.
* `unbroken_trim_iff`: a trimmed text is one line just when at most one line of the text is not blank.
-/

namespace AgentRelay.Text

/-! ### Trimming -/

theorem trimChars_blank_cons {c : Char} (hc : isBlank c = true) (cs : List Char) :
    trimChars (c :: cs) = trimChars cs := by
  simp [trimChars, trimStart, hc]

theorem trimChars_append_blank {back : List Char} (hback : ∀ c ∈ back, isBlank c = true) (cs : List Char) :
    trimChars (cs ++ back) = trimChars cs := by
  rw [trimChars, trimStart, List.dropWhile_append, ← trimStart]
  split
  · rename_i hnil
    rw [List.dropWhile_eq_nil_iff.2 hback, trimChars, List.isEmpty_iff.1 hnil]
  · rw [trimChars, trimEnd, trimEnd, Bytes.dropEndWhile_append_of_pos hback]

theorem trimChars_trimChars (cs : List Char) : trimChars (trimChars cs) = trimChars cs := by
  have htrim := congrArg String.toList (trim_trim (String.ofList cs))
  simpa only [trim, String.toList_ofList] using htrim

/-- What trimming takes away is white space. -/
theorem exists_trimChars (cs : List Char) : ∃ front back, cs = front ++ trimChars cs ++ back ∧
    (∀ c ∈ front, isBlank c = true) ∧ ∀ c ∈ back, isBlank c = true := by
  refine ⟨cs.takeWhile isBlank, (trimStart cs).rtakeWhile isBlank, ?_,
    fun c hc => List.mem_takeWhile_imp hc, fun c hc => List.mem_rtakeWhile_imp hc⟩
  rw [trimChars, List.append_assoc, trimEnd_eq_rdropWhile, List.rdropWhile_append_rtakeWhile, trimStart,
    List.takeWhile_append_dropWhile]

/-! ### Line by line -/

/-- A text is its last line, or a line with the text behind its line feed. -/
theorem lines_induction {P : List Char → Prop} (last : ∀ line, '\n' ∉ line → P line)
    (next : ∀ line rest, '\n' ∉ line → P rest → P (line ++ '\n' :: rest)) (cs : List Char) : P cs := by
  by_cases h : '\n' ∈ cs
  · obtain ⟨line, rest, rfl, hline⟩ := List.eq_append_cons_of_mem h
    exact next line rest hline (lines_induction last next rest)
  · exact last cs h
termination_by cs.length

/-- With the line feed of a line goes the carriage return in front of it. -/
theorem dropLineEnd_concat (line : List Char) :
    dropLineEnd (line ++ ['\n']) = line ∨ line = dropLineEnd (line ++ ['\n']) ++ ['\r'] := by
  have hreverse : (line ++ ['\n']).reverse = '\n' :: line.reverse := by simp
  rw [dropLineEnd, hreverse]
  rcases line.eq_nil_or_concat with rfl | ⟨front, c, rfl⟩
  · exact .inl rfl
  · rw [List.concat_eq_append, List.reverse_append]
    by_cases hc : c = '\r'
    · subst hc
      exact .inr (by simp)
    · refine .inl ?_
      split <;> simp_all

theorem ends_no_line {line : List Char} (h : '\n' ∉ line) : ∀ c ∈ line, (c == '\n') = false := by
  intro c hc
  rw [beq_eq_false_iff_ne]
  rintro rfl
  exact h hc

theorem lines_break {line : List Char} (h : '\n' ∉ line) (rest : List Char) :
    lines (String.ofList (line ++ '\n' :: rest)) =
      String.ofList (dropLineEnd (line ++ ['\n'])) :: lines (String.ofList rest) := by
  rw [lines, String.toList_ofList, piecesAfter_append_cons (ends_no_line h) rfl, List.map_cons, lines,
    String.toList_ofList]

theorem dropLineEnd_of_getLast? {line : List Char} (h : '\r' ∉ line.getLast?) :
    dropLineEnd (line ++ ['\n']) = line := by
  refine (dropLineEnd_concat line).resolve_right fun hreturn => h ?_
  rw [hreturn]
  exact List.getLast?_concat

theorem lines_unbroken {line : List Char} (h : '\n' ∉ line) (hne : line ≠ []) :
    lines (String.ofList line) = [String.ofList line] := by
  have hend : dropLineEnd line = line := by
    unfold dropLineEnd
    split
    · rename_i hrev
      exact absurd (List.mem_reverse.1 (hrev ▸ List.mem_cons_self)) h
    · rename_i hrev
      exact absurd (List.mem_reverse.1 (hrev ▸ List.mem_cons_self)) h
    · rfl
  rw [lines, String.toList_ofList, piecesAfter_eq_singleton hne (ends_no_line h), List.map_singleton, hend]

/-- Every line feed ends a line. -/
theorem length_lines_append (front back : List Char) :
    (lines (String.ofList (front ++ '\n' :: back))).length =
      front.count '\n' + 1 + (lines (String.ofList back)).length := by
  induction front using lines_induction with
  | last line hline =>
    rw [lines_break hline, List.count_eq_zero_of_not_mem hline, List.length_cons]
    omega
  | next line rest hline ih =>
    rw [List.append_assoc, List.cons_append, lines_break hline, List.length_cons, ih, List.count_append,
      List.count_eq_zero_of_not_mem hline, List.count_cons_self]
    omega

/-- There is no line feed in a line. -/
theorem unbroken_of_mem_lines {s line : String} (h : line ∈ lines s) : '\n' ∉ line.toList := by
  rw [← String.ofList_toList (s := s)] at h
  generalize s.toList = cs at h
  induction cs using lines_induction with
  | last cs hcs =>
    by_cases hne : cs = []
    · subst hne
      cases h
    · rw [lines_unbroken hcs hne, List.mem_singleton] at h
      rwa [h, String.toList_ofList]
  | next front rest hfront ih =>
    rw [lines_break hfront, List.mem_cons] at h
    rcases h with rfl | h
    · rw [String.toList_ofList]
      rcases dropLineEnd_concat front with hend | hend
      · rwa [hend]
      · rw [hend] at hfront
        exact fun hmem => hfront (List.mem_append_left _ hmem)
    · exact ih h

/-! ### What is gathered -/

/-- White space around a line does not count, and a blank line gives nothing. -/
structure IgnoresBlank {β : Type} (f : String → Option β) : Prop where
  empty : f "" = none
  trimmed (s : String) : f (trim s) = f s

namespace IgnoresBlank

variable {β : Type} {f : String → Option β}

/-- Only what is left after trimming counts. -/
theorem congr (hf : IgnoresBlank f) {s t : List Char} (h : trimChars s = trimChars t) :
    f (String.ofList s) = f (String.ofList t) := by
  rw [← hf.trimmed (String.ofList s), ← hf.trimmed (String.ofList t), trim, trim,
    String.toList_ofList, String.toList_ofList, h]

theorem lines_unbroken (hf : IgnoresBlank f) {line : List Char} (h : '\n' ∉ line) :
    (lines (String.ofList line)).filterMap f = (f (String.ofList line)).toList := by
  by_cases hne : line = []
  · subst hne
    exact (congrArg Option.toList hf.empty).symm
  · rw [Text.lines_unbroken h hne]
    cases hline : f (String.ofList line) <;> simp [hline]

theorem lines_break (hf : IgnoresBlank f) {line : List Char} (h : '\n' ∉ line) (rest : List Char) :
    (lines (String.ofList (line ++ '\n' :: rest))).filterMap f =
      (f (String.ofList line)).toList ++ (lines (String.ofList rest)).filterMap f := by
  have hend : f (String.ofList (dropLineEnd (line ++ ['\n']))) = f (String.ofList line) := by
    rcases dropLineEnd_concat line with hend | hend
    · rw [hend]
    · refine hf.congr ?_
      conv_rhs => rw [hend]
      exact (trimChars_append_blank (List.forall_mem_singleton.2 rfl) _).symm
  rw [Text.lines_break h, List.filterMap_cons, hend]
  cases f (String.ofList line) <;> rfl

/-- What is gathered in front of a line feed and behind it. -/
theorem lines_append (hf : IgnoresBlank f) (front back : List Char) :
    (lines (String.ofList (front ++ '\n' :: back))).filterMap f =
      (lines (String.ofList front)).filterMap f ++ (lines (String.ofList back)).filterMap f := by
  induction front using lines_induction with
  | last line hline => rw [hf.lines_break hline, hf.lines_unbroken hline]
  | next line rest hline ih =>
    rw [List.append_assoc, List.cons_append, hf.lines_break hline, hf.lines_break hline, ih,
      List.append_assoc]

theorem lines_blank_cons (hf : IgnoresBlank f) {c : Char} (hc : isBlank c = true) (cs : List Char) :
    (lines (String.ofList (c :: cs))).filterMap f = (lines (String.ofList cs)).filterMap f := by
  by_cases hbreak : c = '\n'
  · subst hbreak
    rw [← List.nil_append ('\n' :: cs), hf.lines_append]
    rfl
  · have hfirst : ∀ line, '\n' ∉ line → '\n' ∉ c :: line := fun line hline hmem =>
      (List.mem_cons.1 hmem).elim (fun h => hbreak h.symm) hline
    induction cs using lines_induction with
    | last line hline =>
      rw [hf.lines_unbroken hline, hf.lines_unbroken (hfirst line hline),
        hf.congr (trimChars_blank_cons hc line)]
    | next line rest hline _ =>
      rw [← List.cons_append, hf.lines_break hline, hf.lines_break (hfirst line hline),
        hf.congr (trimChars_blank_cons hc line)]

theorem lines_concat_blank (hf : IgnoresBlank f) {c : Char} (hc : isBlank c = true) (cs : List Char) :
    (lines (String.ofList (cs ++ [c]))).filterMap f = (lines (String.ofList cs)).filterMap f := by
  by_cases hbreak : c = '\n'
  · subst hbreak
    rw [hf.lines_append]
    exact List.append_nil _
  · induction cs using lines_induction with
    | last line hline =>
      have hend : '\n' ∉ line ++ [c] := by simpa [hline] using fun h : '\n' = c => hbreak h.symm
      rw [hf.lines_unbroken hline, hf.lines_unbroken hend,
        hf.congr (trimChars_append_blank (by simpa using hc) line)]
    | next line rest hline ih =>
      rw [List.append_assoc, List.cons_append, hf.lines_break hline, hf.lines_break hline, ih]

/-- White space around a text does not count. -/
theorem lines_trim (hf : IgnoresBlank f) (s : String) :
    (lines (trim s)).filterMap f = (lines s).filterMap f := by
  have hfront : ∀ front cs, (∀ c ∈ front, isBlank c = true) →
      (lines (String.ofList (front ++ cs))).filterMap f = (lines (String.ofList cs)).filterMap f := by
    intro front cs hblank
    induction front with
    | nil => rfl
    | cons c front ih =>
      rw [List.cons_append, hf.lines_blank_cons (hblank c (by simp))]
      exact ih fun d hd => hblank d (by simp [hd])
  have hback : ∀ back cs, (∀ c ∈ back, isBlank c = true) →
      (lines (String.ofList (cs ++ back))).filterMap f = (lines (String.ofList cs)).filterMap f := by
    intro back cs hblank
    induction back generalizing cs with
    | nil => rw [List.append_nil]
    | cons c back ih =>
      rw [List.append_cons, ih _ fun d hd => hblank d (by simp [hd]),
        hf.lines_concat_blank (hblank c (by simp))]
  obtain ⟨front, back, hs, hfrontBlank, hbackBlank⟩ := exists_trimChars s.toList
  conv_rhs => rw [← String.ofList_toList (s := s), hs]
  rw [hback _ _ hbackBlank, hfront _ _ hfrontBlank, trim]

end IgnoresBlank

/-! ### Lines that are not blank -/

theorem isBlankText_trim (s : String) : isBlankText (trim s) = isBlankText s := by
  rw [Bool.eq_iff_iff, ← trim_eq_empty_iff, trim_trim, trim_eq_empty_iff]

theorem ignoresBlank_filled? : IgnoresBlank filled? where
  empty := rfl
  trimmed s := by rw [filled?, isBlankText_trim, trim_trim, filled?]

/-- A line that is not blank stays. -/
theorem filled_lines_ne_nil {cs : List Char} {c : Char} (hc : c ∈ cs) (hkept : isBlank c = false) :
    (lines (String.ofList cs)).filterMap filled? ≠ [] := by
  have hline : ∀ line : List Char, c ∈ line → (filled? (String.ofList line)).toList ≠ [] := by
    intro line hmem
    have hblank : isBlankText (String.ofList line) = false := by
      rw [isBlankText, String.toList_ofList, List.all_eq_false]
      exact ⟨c, hmem, by simp [hkept]⟩
    simp [filled?, hblank]
  induction cs using lines_induction with
  | last line hunbroken =>
    rw [ignoresBlank_filled?.lines_unbroken hunbroken]
    exact hline line hc
  | next line rest hunbroken ih =>
    rw [ignoresBlank_filled?.lines_break hunbroken]
    rcases List.mem_append.1 hc with hc | hc
    · exact fun hnil => hline line hc (List.append_eq_nil_iff.1 hnil).1
    · rcases List.mem_cons.1 hc with rfl | hc
      · cases hkept
      · exact fun hnil => ih hc (List.append_eq_nil_iff.1 hnil).2

/-- No line stays of a blank text, and of no other. -/
theorem filled_lines_eq_nil_iff (s : String) : (lines s).filterMap filled? = [] ↔ isBlankText s = true := by
  constructor
  · intro hnil
    rw [isBlankText, List.all_eq_true]
    by_contra hkept
    simp only [not_forall] at hkept
    obtain ⟨c, hc, hkept⟩ := hkept
    have hne := filled_lines_ne_nil hc (by simpa using hkept)
    rw [String.ofList_toList] at hne
    exact hne hnil
  · intro hblank
    rw [← ignoresBlank_filled?.lines_trim, trim_eq_empty_iff.2 hblank]
    rfl

/-- A trimmed text is one line just when at most one line of the text is not blank. -/
theorem unbroken_trim_iff (s : String) :
    '\n' ∉ (trim s).toList ↔ ((lines s).filterMap filled?).length ≤ 1 := by
  rw [← ignoresBlank_filled?.lines_trim]
  have hfirst := head?_trim s
  have hlast := getLast?_trim s
  rw [← String.ofList_toList (s := trim s), String.toList_ofList]
  generalize (trim s).toList = cs at hfirst hlast
  constructor
  · intro hunbroken
    rw [ignoresBlank_filled?.lines_unbroken hunbroken]
    cases filled? (String.ofList cs) <;> simp
  · intro hlength hbreak
    obtain ⟨front, back, rfl, -⟩ := List.eq_append_cons_of_mem hbreak
    -- a line that is not blank stands on either side of the line feed
    have hfront : (lines (String.ofList front)).filterMap filled? ≠ [] := by
      cases front with
      | nil => cases hfirst '\n' rfl
      | cons c front => exact filled_lines_ne_nil List.mem_cons_self (hfirst c rfl)
    have hback : (lines (String.ofList back)).filterMap filled? ≠ [] := by
      rcases back.eq_nil_or_concat with rfl | ⟨back, c, rfl⟩
      · cases hlast '\n' (by simp)
      · refine filled_lines_ne_nil (by simp) (hlast c ?_)
        rw [List.concat_eq_append, ← List.cons_append, ← List.append_assoc]
        exact List.getLast?_concat
    rw [ignoresBlank_filled?.lines_append, List.length_append] at hlength
    have hfrontLength := List.length_pos_iff.2 hfront
    have hbackLength := List.length_pos_iff.2 hback
    omega

end AgentRelay.Text
