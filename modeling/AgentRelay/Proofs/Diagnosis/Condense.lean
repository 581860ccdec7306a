import AgentRelay.Diagnosis
import AgentRelay.Proofs.Text.Joined
import AgentRelay.Proofs.Text.Lines

/-!
# Condensing

A text is put on one line without the exit codes that commands leave behind. One code is taken off the end of
a line. When another stands in front of it, what is left of the line is an exit code again or ends in one, and
condensing the result may take that off as well.

* `EndsInCode` and `IsStacked` are the ends of lines, `isClean_part_iff` says what is left of a line that is
  not stacked.
* `condense_condense_iff` says when a condensed text stays as it is, `condense_settles_iff` also when no exit
  code is left.
-/

namespace AgentRelay.Diagnosis

/-! ### Exit codes -/

/-- A text ends in a colon and an exit code. -/
def EndsInCode (cs : List Char) : Prop :=
  ∃ front code, cs = front ++ (": ".toList ++ code) ∧ isExitStatus code = true

/-- A text is an exit code behind a colon and nothing else. -/
def IsCodeOnly (cs : List Char) : Prop := ∃ code, cs = ": ".toList ++ code ∧ isExitStatus code = true

/-- A text neither is an exit code nor ends in one. -/
def IsClean (cs : List Char) : Prop := isExitStatus cs = false ∧ ¬ EndsInCode cs

/-- A text ends in an exit code, and what stands in front of that is an exit code or ends in one. -/
def IsStacked (cs : List Char) : Prop :=
  ∃ front code, cs = front ++ (": ".toList ++ code) ∧ isExitStatus code = true ∧
    ¬ IsClean (Text.trimEnd front)

/-- Behind the announcing words of an exit code there are only colons, white space and digits. -/
theorem exists_of_isExitStatus {cs : List Char} (h : isExitStatus cs = true) :
    ∃ rest, cs = exitStatus ++ rest ∧
      ∀ c ∈ rest, c = ':' ∨ Text.isBlank c = true ∨ c.isDigit = true := by
  unfold isExitStatus afterStart? at h
  by_cases hstart : exitStatus.isPrefixOf cs = true
  · obtain ⟨rest, rfl⟩ := List.isPrefixOf_iff_prefix.1 hstart
    rw [if_pos hstart] at h
    simp only [List.drop_left, Bool.and_eq_true, List.all_eq_true] at h
    refine ⟨rest, rfl, fun c hc => ?_⟩
    rw [← List.takeWhile_append_dropWhile (p := (· == ':')) (l := rest), List.mem_append] at hc
    rcases hc with hc | hc
    · exact .inl (by simpa using List.mem_takeWhile_imp hc)
    · obtain ⟨front, back, hcode, hfront, hback⟩ := Text.exists_trimChars (rest.dropWhile (· == ':'))
      rw [hcode, List.mem_append, List.mem_append] at hc
      rcases hc with (hc | hc) | hc
      · exact .inr (.inl (hfront c hc))
      · exact .inr (.inr (h.2 c hc))
      · exact .inr (.inl (hback c hc))
  · rw [if_neg hstart] at h
    cases h

/-- An exit code has no character that could announce another or separate two parts. -/
theorem not_mem_of_isExitStatus {code : List Char} (h : isExitStatus code = true) :
    '|' ∉ code ∧ ∃ rest, code = exitStatus ++ rest ∧ 'x' ∉ rest := by
  obtain ⟨rest, rfl, hrest⟩ := exists_of_isExitStatus h
  have hbar : '|' ∉ rest := fun hmem => by
    have hkind := hrest '|' hmem
    revert hkind
    decide
  have hx : 'x' ∉ rest := fun hmem => by
    have hkind := hrest 'x' hmem
    revert hkind
    decide
  refine ⟨?_, rest, rfl, hx⟩
  rw [List.mem_append]
  exact fun hmem => hmem.elim (by decide) hbar

/-- An exit code announces itself and no other. -/
theorem not_infix_of_isExitStatus {code : List Char} (h : isExitStatus code = true) :
    ¬ ": ".toList ++ exitStatus <:+: ' ' :: code := by
  obtain ⟨-, rest, rfl, hx⟩ := not_mem_of_isExitStatus h
  have hcode : ' ' :: (exitStatus ++ rest) = ' ' :: 'e' :: 'x' :: ("it status".toList ++ rest) := rfl
  have hmark : ": ".toList ++ exitStatus = ':' :: " exit status".toList := rfl
  rw [hcode, hmark]
  -- the only place for an x is too far in front
  intro hinfix
  have hrest : ':' :: " exit status".toList <:+: "it status".toList ++ rest := by
    simpa [List.infix_cons_iff, List.cons_prefix_cons] using hinfix
  have hmem : 'x' ∈ "it status".toList ++ rest := hrest.subset (by decide)
  exact (List.mem_append.1 hmem).elim (by decide) hx

theorem not_endsInCode_of_isExitStatus {cs : List Char} (h : isExitStatus cs = true) : ¬ EndsInCode cs := by
  rintro ⟨front, code, rfl, hcode⟩
  obtain ⟨rest, rfl, -⟩ := exists_of_isExitStatus hcode
  refine not_infix_of_isExitStatus h (.trans ?_ (List.suffix_cons _ _).isInfix)
  exact ⟨front, rest, by simp⟩

theorem isClean_nil : IsClean [] := by
  refine ⟨rfl, ?_⟩
  rintro ⟨front, code, hnil, -⟩
  simp at hnil

/-! ### Taking off one exit code -/

theorem cutLast?_spec {part cs front back : List Char} (h : cutLast? part cs = some (front, back)) :
    cs = front ++ back ∧ part <+: back := by
  induction cs generalizing front with
  | nil =>
    unfold cutLast? at h
    split at h
    · rename_i hpart
      cases h
      exact ⟨rfl, (List.isEmpty_iff.1 hpart) ▸ List.nil_prefix⟩
    · cases h
  | cons c cs ih =>
    unfold cutLast? at h
    split at h
    · rename_i front' back' hcut
      cases h
      obtain ⟨rfl, hpart⟩ := ih hcut
      exact ⟨rfl, hpart⟩
    · split at h
      · rename_i hpart
        cases h
        exact ⟨rfl, List.isPrefixOf_iff_prefix.1 hpart⟩
      · cases h

/-- The cut is in front of an occurrence behind which there is no other. -/
theorem cutLast?_append {part back : List Char} {c : Char} (hpart : part <+: c :: back)
    (hlast : ¬ part <:+: back) (front : List Char) :
    cutLast? part (front ++ c :: back) = some (front, c :: back) := by
  have hnone : cutLast? part back = none := by
    rw [Option.eq_none_iff_forall_not_mem]
    rintro ⟨front', back'⟩ hcut
    obtain ⟨rfl, hpart'⟩ := cutLast?_spec hcut
    exact hlast (hpart'.isInfix.trans (List.suffix_append front' back').isInfix)
  induction front with
  | nil => simp only [List.nil_append, cutLast?, hnone, List.isPrefixOf_iff_prefix.2 hpart, if_true]
  | cons d front ih => simp only [List.cons_append, cutLast?, ih]

/-- An exit code is taken off the end of a line. -/
theorem dropExitStatus_of_code {code : List Char} (h : isExitStatus code = true) (front : List Char) :
    dropExitStatus (front ++ (": ".toList ++ code)) = Text.trimEnd front := by
  have hcut : cutLast? (": ".toList ++ exitStatus) (front ++ (": ".toList ++ code)) =
      some (front, ": ".toList ++ code) := by
    refine cutLast?_append ?_ (not_infix_of_isExitStatus h) front
    obtain ⟨rest, rfl, -⟩ := exists_of_isExitStatus h
    exact ⟨rest, rfl⟩
  have hback : (": ".toList ++ code).drop 2 = code := rfl
  rw [dropExitStatus, hcut]
  simp only [hback, h, if_true]

/-- Nothing else is taken off. -/
theorem dropExitStatus_of_not_endsInCode {cs : List Char} (h : ¬ EndsInCode cs) : dropExitStatus cs = cs := by
  unfold dropExitStatus
  split
  · rename_i front back hcut
    obtain ⟨rfl, rest, rfl⟩ := cutLast?_spec hcut
    rw [if_neg]
    exact fun hcode => h ⟨front, _, rfl, hcode⟩
  · rfl

/-! ### What is left of a line -/

theorem part?_eq_some_iff {line p : String} : part? line = some p ↔
    isExitStatus (Text.trimChars line.toList) = false ∧
      dropExitStatus (Text.trimChars line.toList) = p.toList ∧ p.toList ≠ [] := by
  have hnil : dropExitStatus [] = [] := rfl
  simp only [part?]
  generalize Text.trimChars line.toList = cs
  constructor
  · intro h
    split at h
    · cases h
    · rename_i hkept
      split at h
      · cases h
      · rename_i hleft
        cases h
        simp only [Bool.or_eq_true, not_or, Bool.not_eq_true] at hkept
        simp only [List.isEmpty_iff] at hleft
        rw [String.toList_ofList]
        exact ⟨hkept.2, rfl, hleft⟩
  · rintro ⟨hcode, hleft, hne⟩
    have hcs : cs ≠ [] := by
      rintro rfl
      exact hne (hleft.symm.trans hnil)
    rw [if_neg (by simp [hcs, hcode]), hleft, if_neg (by simpa using hne), String.ofList_toList]

theorem part?_eq_none_iff {line : String} : part? line = none ↔
    isExitStatus (Text.trimChars line.toList) = true ∨ dropExitStatus (Text.trimChars line.toList) = [] := by
  constructor
  · intro h
    by_contra hkept
    simp only [not_or, Bool.not_eq_true] at hkept
    have hsome : part? line = some (String.ofList (dropExitStatus (Text.trimChars line.toList))) := by
      rw [part?_eq_some_iff, String.toList_ofList]
      exact ⟨hkept.1, rfl, hkept.2⟩
    rw [h] at hsome
    cases hsome
  · intro h
    rw [Option.eq_none_iff_forall_not_mem]
    intro p hp
    obtain ⟨hcode, hleft, hne⟩ := part?_eq_some_iff.1 hp
    rcases h with h | h
    · rw [hcode] at h
      cases h
    · exact hne (hleft.symm.trans h)

theorem ignoresBlank_part? : Text.IgnoresBlank part? where
  empty := rfl
  trimmed s := by
    simp only [part?, Text.trim, String.toList_ofList, Text.trimChars_trimChars]

/-- What is left of a line has no exit code just when the line is not stacked. -/
theorem isClean_part_iff {line p : String} (h : part? line = some p) :
    IsClean p.toList ↔ ¬ IsStacked (Text.trimChars line.toList) := by
  obtain ⟨hcode, hleft, -⟩ := part?_eq_some_iff.1 h
  generalize Text.trimChars line.toList = cs at hcode hleft
  rw [← hleft]
  constructor
  · rintro hclean ⟨front, code, rfl, hexit, hstacked⟩
    rw [dropExitStatus_of_code hexit] at hclean
    exact hstacked hclean
  · intro hstacked
    by_cases hends : EndsInCode cs
    · obtain ⟨front, code, rfl, hexit⟩ := hends
      rw [dropExitStatus_of_code hexit]
      by_contra hclean
      exact hstacked ⟨front, code, rfl, hexit, hclean⟩
    · rw [dropExitStatus_of_not_endsInCode hends]
      exact ⟨hcode, hends⟩

/-- A line of which nothing is left is not stacked. -/
theorem not_isStacked_of_part? {line : String} (h : part? line = none) :
    ¬ IsStacked (Text.trimChars line.toList) := by
  rintro ⟨front, code, hline, hexit, hstacked⟩
  rcases part?_eq_none_iff.1 h with hcode | hleft
  · exact not_endsInCode_of_isExitStatus hcode ⟨front, code, hline, hexit⟩
  · rw [hline, dropExitStatus_of_code hexit] at hleft
    rw [hleft] at hstacked
    exact hstacked isClean_nil

/-- A line of which nothing is left is blank or has an exit code. -/
theorem not_isClean_of_part? {line t : String} (h : part? line = none) (hfilled : Text.filled? line = some t) :
    ¬ IsClean t.toList := by
  obtain ⟨rfl, c, cs, ht, -⟩ := Text.filled?_eq_some hfilled
  rw [Text.trim, String.toList_ofList] at ht ⊢
  rintro ⟨hcode, hends⟩
  rcases part?_eq_none_iff.1 h with hexit | hleft
  · rw [hcode] at hexit
    cases hexit
  · rw [dropExitStatus_of_not_endsInCode hends, ht] at hleft
    cases hleft

/-! ### Parts joined -/

/-- On one line, and without white space at its ends. -/
structure IsTidy (cs : List Char) : Prop where
  ne_nil : cs ≠ []
  first : ∀ c ∈ cs.head?, Text.isBlank c = false
  last : ∀ c ∈ cs.getLast?, Text.isBlank c = false
  unbroken : '\n' ∉ cs

theorem IsTidy.join {front back : List Char} (hfront : IsTidy front) (hback : IsTidy back) :
    IsTidy (front ++ " | ".toList ++ back) where
  ne_nil := by simp
  first := by
    obtain ⟨c, cs, rfl⟩ := List.exists_cons_of_ne_nil hfront.ne_nil
    exact hfront.first
  last := by
    rw [List.getLast?_append, List.getLast?_eq_some_getLast hback.ne_nil, Option.some_or,
      ← List.getLast?_eq_some_getLast hback.ne_nil]
    exact hback.last
  unbroken := by
    simp only [List.mem_append, not_or]
    exact ⟨⟨hfront.unbroken, by decide⟩, hback.unbroken⟩

/-- What is left of a line is tidy. -/
theorem isTidy_part {line p : String} (hbreak : '\n' ∉ line.toList) (h : part? line = some p) :
    IsTidy p.toList := by
  obtain ⟨-, hleft, hne⟩ := part?_eq_some_iff.1 h
  have hfirst := Text.head?_trim line
  have hlast := Text.getLast?_trim line
  obtain ⟨lead, trail, hline, -, -⟩ := Text.exists_trimChars line.toList
  rw [Text.trim, String.toList_ofList] at hfirst hlast
  rw [hline] at hbreak
  generalize Text.trimChars line.toList = cs at hleft hfirst hlast hbreak
  simp only [List.mem_append, not_or] at hbreak
  by_cases hends : EndsInCode cs
  · obtain ⟨front, code, rfl, hexit⟩ := hends
    rw [dropExitStatus_of_code hexit] at hleft
    obtain ⟨back, hback⟩ : p.toList <+: front := hleft ▸ List.rdropWhile_prefix Text.isBlank front
    refine ⟨hne, fun c hc => hfirst c ?_, ?_, fun hmem => hbreak.1.2 ?_⟩
    · rw [← hback, List.append_assoc, List.head?_append, Option.mem_def.1 hc]
      rfl
    · rw [← hleft]
      exact Bytes.getLast?_dropEndWhile Text.isBlank front
    · simp [← hback, hmem]
  · rw [dropExitStatus_of_not_endsInCode hends] at hleft
    subst hleft
    exact ⟨hne, hfirst, hlast, hbreak.1.2⟩

theorem isTidy_intercalate {ps : List String} (hne : ps ≠ []) (h : ∀ p ∈ ps, IsTidy p.toList) :
    IsTidy (" | ".intercalate ps).toList := by
  refine Text.intercalate_induction (P := fun s => IsTidy s.toList) ?_ hne h
  intro s t hs ht
  rw [String.toList_append, String.toList_append]
  exact hs.join ht

/-- What stands in front of a separator has no part in the exit code at the end. -/
theorem endsInCode_join_iff {front back : List Char} :
    EndsInCode (front ++ " | ".toList ++ back) ↔ EndsInCode back := by
  constructor
  · rintro ⟨lead, code, hends, hexit⟩
    have hbar : '|' ∉ ": ".toList ++ code := by
      rw [List.mem_append]
      exact fun hmem => hmem.elim (by decide) (not_mem_of_isExitStatus hexit).1
    have hcode : ": ".toList ++ code <:+ front ++ " | ".toList ++ back := hends ▸ List.suffix_append ..
    have hback : '|' :: ' ' :: back <:+ front ++ " | ".toList ++ back :=
      ⟨front ++ [' '], by simp⟩
    -- the exit code begins behind the bar, and not with the space there
    have hsuffix : ": ".toList ++ code <:+ '|' :: ' ' :: back := by
      rcases List.suffix_or_suffix_of_suffix hcode hback with hsuffix | hsuffix
      · exact hsuffix
      · exact absurd (hsuffix.subset List.mem_cons_self) hbar
    obtain ⟨lead', hlead⟩ : ": ".toList ++ code <:+ back := by
      simpa [List.suffix_cons_iff] using hsuffix
    exact ⟨lead', code, hlead.symm, hexit⟩
  · rintro ⟨lead, code, rfl, hexit⟩
    exact ⟨front ++ " | ".toList ++ lead, code, by simp, hexit⟩

/-- Parts end in an exit code when the last of them does. -/
theorem endsInCode_intercalate_iff (ps : List String) :
    EndsInCode (" | ".intercalate ps).toList ↔ ∃ last ∈ ps.getLast?, EndsInCode last.toList := by
  induction ps with
  | nil => simpa using isClean_nil.2
  | cons p ps ih =>
    cases ps with
    | nil => simp
    | cons q ps =>
      rw [String.intercalate_cons_cons, String.toList_append, String.toList_append, endsInCode_join_iff, ih,
        List.getLast?_cons_cons]

/-! ### What condensing leaves -/

/-- What is left of the lines of a text. -/
def parts (text : String) : List String := (Text.lines text).filterMap part?

/-- The pieces of a condensed text, each of one line. When nothing is left of any line, the lines as they are. -/
def pieces (text : String) : List String :=
  if parts text = [] then (Text.lines text).filterMap Text.filled? else parts text

theorem condense_eq_intercalate {text : String} (h : parts text ≠ []) :
    condense text = " | ".intercalate (parts text) := by
  unfold condense
  split
  · exact absurd ‹_› h
  · rfl

theorem condense_eq_trim {text : String} (h : parts text = []) : condense text = Text.trim text := by
  unfold condense
  split
  · rfl
  · rename_i hne
    exact absurd h hne

theorem isTidy_of_mem_parts {text p : String} (h : p ∈ parts text) : IsTidy p.toList := by
  obtain ⟨line, hline, hp⟩ := List.mem_filterMap.1 h
  exact isTidy_part (Text.unbroken_of_mem_lines hline) hp

/-- A tidy text is one line, and stays when nothing would be left of it. -/
theorem condense_of_isTidy {r : String} (h : IsTidy r.toList) : condense r = (part? r).getD r := by
  have hparts : parts r = (part? r).toList := by
    have hline := ignoresBlank_part?.lines_unbroken h.unbroken
    rwa [String.ofList_toList] at hline
  cases hp : part? r with
  | none =>
    rw [hp] at hparts
    rw [condense_eq_trim hparts]
    exact Text.trim_eq_self h.first h.last
  | some p =>
    rw [hp] at hparts
    have hne : parts r ≠ [] := by simp [hparts]
    rw [condense_eq_intercalate hne, hparts]
    exact String.intercalate_singleton

/-- A tidy text stays as it is unless an exit code stands at its end behind something. -/
theorem condense_eq_self_iff {r : String} (h : IsTidy r.toList) :
    condense r = r ↔ (EndsInCode r.toList → IsCodeOnly r.toList) := by
  have hself : Text.trimChars r.toList = r.toList := by
    have htrim := congrArg String.toList (Text.trim_eq_self h.first h.last)
    rwa [Text.trim, String.toList_ofList] at htrim
  rw [condense_of_isTidy h]
  cases hp : part? r with
  | none =>
    refine iff_of_true rfl ?_
    rintro ⟨front, code, hr, hexit⟩
    rcases part?_eq_none_iff.1 hp with hcode | hleft
    · rw [hself] at hcode
      exact absurd ⟨front, code, hr, hexit⟩ (not_endsInCode_of_isExitStatus hcode)
    · rw [hself, hr, dropExitStatus_of_code hexit] at hleft
      cases front with
      | nil => exact ⟨code, hr, hexit⟩
      | cons c front =>
        have hkept := h.first c (by simp [hr])
        rw [List.rdropWhile_eq_nil_iff.1 hleft c List.mem_cons_self] at hkept
        cases hkept
  | some p =>
    obtain ⟨-, hleft, hne⟩ := part?_eq_some_iff.1 hp
    rw [hself] at hleft
    rw [Option.getD_some]
    by_cases hends : EndsInCode r.toList
    · obtain ⟨front, code, hr, hexit⟩ := hends
      rw [hr, dropExitStatus_of_code hexit] at hleft
      refine iff_of_false ?_ ?_
      · rintro rfl
        have hlength : p.toList.length ≤ front.length := hleft ▸ (List.rdropWhile_prefix Text.isBlank front).length_le
        rw [hr, List.length_append, List.length_append] at hlength
        have hcolon : ": ".toList.length = 2 := rfl
        omega
      · intro honly
        obtain ⟨code', hr', hexit'⟩ := honly ⟨front, code, hr, hexit⟩
        have hnil := dropExitStatus_of_code hexit' []
        rw [List.nil_append, ← hr', hr, dropExitStatus_of_code hexit, hleft] at hnil
        exact hne hnil
    · rw [dropExitStatus_of_not_endsInCode hends] at hleft
      exact iff_of_true (String.toList_inj.1 hleft.symm) fun hcode => absurd hcode hends

/-! ### When the result is settled -/

theorem not_mem_of_isCodeOnly {cs : List Char} (h : IsCodeOnly cs) : '|' ∉ cs := by
  obtain ⟨code, rfl, hexit⟩ := h
  rw [List.mem_append]
  exact fun hmem => hmem.elim (by decide) (not_mem_of_isExitStatus hexit).1

/-- Condensing again changes nothing just when the last part ends in no exit code, or is one behind a colon and
the only part. -/
theorem condense_condense_iff (text : String) : condense (condense text) = condense text ↔
    ∀ last ∈ (parts text).getLast?, EndsInCode last.toList →
      parts text = [last] ∧ IsCodeOnly last.toList := by
  by_cases hnil : parts text = []
  · have hagain : parts (Text.trim text) = [] := (ignoresBlank_part?.lines_trim text).trans hnil
    rw [condense_eq_trim hnil, condense_eq_trim hagain, hnil]
    exact iff_of_true (Text.trim_trim text) nofun
  · rw [condense_eq_intercalate hnil,
      condense_eq_self_iff (isTidy_intercalate hnil fun p hp => isTidy_of_mem_parts hp),
      endsInCode_intercalate_iff]
    generalize parts text = ps
    constructor
    · intro honly last hlast hends
      have hwhole := honly ⟨last, hlast, hends⟩
      match ps with
      | [] => cases hlast
      | [p] =>
        cases hlast
        exact ⟨rfl, by simpa using hwhole⟩
      | p :: q :: ps =>
        refine absurd ?_ (not_mem_of_isCodeOnly hwhole)
        simp [String.intercalate_cons_cons]
    · rintro hlast ⟨last, hmem, hends⟩
      obtain ⟨rfl, hcode⟩ := hlast last hmem hends
      simpa using hcode

/-- No piece has an exit code just when something is left of some line, or there is nothing in the text, and no
line is stacked. -/
theorem isClean_pieces_iff (text : String) : (∀ piece ∈ pieces text, IsClean piece.toList) ↔
    (Text.isBlankText text = true ∨ parts text ≠ []) ∧
      ∀ line ∈ Text.lines text, ¬ IsStacked (Text.trimChars line.toList) := by
  by_cases hnil : parts text = []
  · have hnone : ∀ line ∈ Text.lines text, part? line = none := List.filterMap_eq_nil_iff.1 hnil
    rw [pieces, if_pos hnil]
    constructor
    · intro hclean
      refine ⟨.inl ?_, fun line hline => not_isStacked_of_part? (hnone line hline)⟩
      rw [← Text.filled_lines_eq_nil_iff, List.eq_nil_iff_forall_not_mem]
      intro piece hpiece
      obtain ⟨line, hline, hfilled⟩ := List.mem_filterMap.1 hpiece
      exact not_isClean_of_part? (hnone line hline) hfilled (hclean piece hpiece)
    · rintro ⟨hblank | hne, -⟩
      · rw [(Text.filled_lines_eq_nil_iff text).2 hblank]
        exact nofun
      · contradiction
  · rw [pieces, if_neg hnil]
    constructor
    · intro hclean
      refine ⟨.inr hnil, fun line hline => ?_⟩
      cases hp : part? line with
      | none => exact not_isStacked_of_part? hp
      | some p => exact (isClean_part_iff hp).1 (hclean p (List.mem_filterMap.2 ⟨line, hline, hp⟩))
    · rintro ⟨-, hstacked⟩ p hmem
      obtain ⟨line, hline, hp⟩ := List.mem_filterMap.1 hmem
      exact (isClean_part_iff hp).2 (hstacked line hline)

/-- **What condensing leaves of exit codes.** Condensing again changes nothing just when the last part ends in no
exit code, or is one behind a colon and the only part. No piece is an exit code or ends in one just when no line
is stacked and something is left of some line, if there is anything in the text. -/
theorem condense_settles_iff (text : String) :
    (condense (condense text) = condense text ↔
      ∀ last ∈ (parts text).getLast?, EndsInCode last.toList →
        parts text = [last] ∧ IsCodeOnly last.toList) ∧
    ((∀ piece ∈ pieces text, IsClean piece.toList) ↔
      (Text.isBlankText text = true ∨ parts text ≠ []) ∧
        ∀ line ∈ Text.lines text, ¬ IsStacked (Text.trimChars line.toList)) :=
  ⟨condense_condense_iff text, isClean_pieces_iff text⟩

/-- Of two exit codes at the end of a line the first one stays, until the text is condensed again. -/
theorem not_condense_settles : ∃ text, condense (condense text) ≠ condense text ∧
    (∃ line ∈ Text.lines text, Text.isBlankText line = false ∧
      isExitStatus (Text.trimChars line.toList) = false) ∧
    ∃ piece ∈ pieces text, ¬ IsClean piece.toList := by
  have honce : condense "a: exit status 1: exit status 2" = "a: exit status 1" := by decide +kernel
  have hagain : condense "a: exit status 1" = "a" := by decide +kernel
  refine ⟨"a: exit status 1: exit status 2", ?_, ⟨"a: exit status 1: exit status 2", ?_⟩,
    "a: exit status 1", ?_, fun hclean => hclean.2 ?_⟩
  · rw [honce, hagain]
    decide
  · decide +kernel
  · decide +kernel
  · exact ⟨"a".toList, "exit status 1".toList, rfl, by decide +kernel⟩

end AgentRelay.Diagnosis
