import AgentRelay.Proofs.Json.Typed

/-!
# White space between tokens

Two texts may have the same tokens and differ in the kind of white space between them. Neither the tokens
that are read from such texts nor the values that are passed over in them can differ.

* `Respaced` is the relation, `Front` what a reader sees of it behind the white space in front
  (`Respaced.behind`).
* `Respaced.dropWord?` and `Numeral.same_read?` are words and numbers.
* `Respaced.extent` is the machine that passes values over.
-/

namespace AgentRelay.Json

variable {x y : Bytes}

/-- Two texts with the same tokens, and white space in the same places. Behind the last token there may be
more of it in one of them. -/
inductive Respaced : Bytes → Bytes → Prop
  | ends {x y : Bytes} (hx : IsSpaces x) (hy : IsSpaces y) : Respaced x y
  | space {c d : UInt8} {x y : Bytes} (hc : isSpace c = true) (hd : isSpace d = true)
      (h : Respaced x y) : Respaced (c :: x) (d :: y)
  | token {c : UInt8} {x y : Bytes} (hc : isSpace c = false) (hquote : c ≠ 34) (h : Respaced x y) :
      Respaced (c :: x) (c :: y)
  | text {body x y : Bytes} (hbody : IsBody body) (h : Respaced x y) :
      Respaced (34 :: (body ++ 34 :: x)) (34 :: (body ++ 34 :: y))

/-- Such texts without white space in front. -/
inductive Front : Bytes → Bytes → Prop
  | nil : Front [] []
  | token {c : UInt8} {x y : Bytes} (hc : isSpace c = false) (hquote : c ≠ 34) (h : Respaced x y) :
      Front (c :: x) (c :: y)
  | text {body x y : Bytes} (hbody : IsBody body) (h : Respaced x y) :
      Front (34 :: (body ++ 34 :: x)) (34 :: (body ++ 34 :: y))

theorem Front.respaced (h : Front x y) : Respaced x y := by
  cases h with
  | nil => exact .ends (by simp [IsSpaces]) (by simp [IsSpaces])
  | token hc hquote h => exact .token hc hquote h
  | text hbody h => exact .text hbody h

theorem skipSpace_of_isSpaces (h : IsSpaces x) : skipSpace x = [] := List.dropWhile_eq_nil_iff.2 h

theorem skipSpace_cons {c : UInt8} (h : isSpace c = true) (x : Bytes) : skipSpace (c :: x) = skipSpace x := by
  simp [skipSpace, h]

theorem Respaced.front (h : Respaced x y) : Front (skipSpace x) (skipSpace y) := by
  induction h with
  | ends hx hy =>
    rw [skipSpace_of_isSpaces hx, skipSpace_of_isSpaces hy]
    exact .nil
  | space hc hd _ ih => rwa [skipSpace_cons hc, skipSpace_cons hd]
  | token hc hquote h =>
    rw [skipSpace_of_not_isSpace hc, skipSpace_of_not_isSpace hc]
    exact .token hc hquote h
  | text hbody h =>
    rw [skipSpace_of_not_isSpace (by decide), skipSpace_of_not_isSpace (by decide)]
    exact .text hbody h

/-- What is done behind white space is done with what stands there. -/
@[elab_as_elim]
theorem Respaced.behind {motive : Bytes → Bytes → Prop} (h : Respaced x y)
    (front : ∀ x' y', x'.length ≤ x.length → y'.length ≤ y.length → Front x' y' → motive x' y') :
    motive (skipSpace x) (skipSpace y) :=
  front _ _ (skipSpace_suffix x).length_le (skipSpace_suffix y).length_le h.front

/-- No byte of a token other than a string stands in front. -/
def IsDull (t : Bytes) : Prop := ∀ c ∈ t.head?, isSpace c = true ∨ c = 34

/-- The first bytes of two such texts belong to the same token, or they are of no interest inside of one. -/
theorem Respaced.head (h : Respaced x y) :
    (∃ c x' y', c ≠ 34 ∧ x = c :: x' ∧ y = c :: y' ∧ Respaced x' y') ∨ IsDull x ∧ IsDull y := by
  have hspaces : ∀ {t : Bytes}, IsSpaces t → IsDull t := fun ht c hc =>
    .inl (ht c (List.mem_of_mem_head? hc))
  cases h with
  | ends hx hy => exact .inr ⟨hspaces hx, hspaces hy⟩
  | space hc hd => exact .inr ⟨by simp [IsDull, hc], by simp [IsDull, hd]⟩
  | token hc hquote h => exact .inl ⟨_, _, _, hquote, rfl, rfl, h⟩
  | text => exact .inr ⟨by simp [IsDull], by simp [IsDull]⟩

/-! ### Words and numbers -/

theorem dropWord?_of_isDull {c : UInt8} {w t : Bytes} (hc : isSpace c = false ∧ c ≠ 34) (ht : IsDull t) :
    dropWord? (c :: w) t = none := by
  cases t with
  | nil => rfl
  | cons d t =>
    have hne : d ≠ c := by
      rintro rfl
      have := ht d rfl
      simp_all
    simp [dropWord?, hne]

theorem isToken_of_mem_words {w : Bytes} (hw : w ∈ words) : ∀ c ∈ w, isSpace c = false ∧ c ≠ 34 := by
  simp only [words, List.mem_cons, List.not_mem_nil, or_false] at hw
  obtain rfl | rfl | rfl := hw <;> simp [isSpace]

theorem Respaced.dropWord? {w : Bytes} (hw : ∀ c ∈ w, isSpace c = false ∧ c ≠ 34) (h : Respaced x y) :
    Option.Rel Respaced (dropWord? w x) (dropWord? w y) := by
  induction w generalizing x y with
  | nil => exact .some h
  | cons c w ih =>
    obtain ⟨d, x', y', -, rfl, rfl, hrest⟩ | ⟨hx, hy⟩ := h.head
    · simp only [Json.dropWord?]
      split_ifs
      · exact ih (fun e he => hw e (List.mem_cons_of_mem _ he)) hrest
      · exact .none
    · rw [dropWord?_of_isDull (hw c (by simp)) hx, dropWord?_of_isDull (hw c (by simp)) hy]
      exact .none

/-- The letters behind the first one of a word. -/
theorem Respaced.dropLetters? (h : Respaced x y) {w : Bytes} (c : UInt8) (hw : c :: w ∈ words) :
    Option.Rel Respaced (Json.dropWord? w x) (Json.dropWord? w y) :=
  h.dropWord? fun d hd => isToken_of_mem_words hw d (List.mem_cons_of_mem c hd)

namespace Numeral

theorem digits_cons (c : UInt8) (t : Bytes) : digits (c :: t) =
    if Bytes.isDigit c then (c :: (digits t).1, (digits t).2) else ([], c :: t) := by
  unfold digits
  split_ifs with hc <;> simp [hc]

/-- No digit, no sign, no point and no letter stands in front. -/
theorem ne_of_isDull {c : UInt8} {t : Bytes} (h : IsDull (c :: t)) :
    Bytes.isDigit c = false ∧ c ∉ [43, 45, 46, 69, 101] := by
  have hc := h c rfl
  unfold isSpace at hc
  unfold Bytes.isDigit
  grind

theorem ne_of_mem_head? {m : UInt8} {t : Bytes} (h : IsDull t) (hm : m ∈ [43, 45, 46, 69, 101]) :
    ∀ c ∈ t.head?, c ≠ m := by
  rintro c hc rfl
  obtain ⟨t, rfl⟩ := List.head?_eq_some_iff.1 hc
  exact (ne_of_isDull h).2 hm

theorem digits_of_isDull {t : Bytes} (h : IsDull t) : digits t = ([], t) := by
  cases t with
  | nil => rfl
  | cons c t => simp [digits_cons, ne_of_isDull h]

theorem respaced_digits (h : Respaced x y) :
    (digits x).1 = (digits y).1 ∧ Respaced (digits x).2 (digits y).2 := by
  induction x generalizing y with
  | nil =>
    obtain ⟨c, x', y', -, ⟨⟩, -⟩ | ⟨hx, hy⟩ := h.head
    rw [digits_of_isDull hx, digits_of_isDull hy]
    exact ⟨rfl, h⟩
  | cons c x ih =>
    obtain ⟨c, x', y', -, ⟨⟩, rfl, hrest⟩ | ⟨hx, hy⟩ := h.head
    · obtain ⟨hds, hbehind⟩ := ih hrest
      simp only [digits_cons]
      split_ifs
      · exact ⟨congrArg (c :: ·) hds, hbehind⟩
      · exact ⟨rfl, h⟩
    · rw [digits_of_isDull hx, digits_of_isDull hy]
      exact ⟨rfl, h⟩

/-- The same literal in front of such texts. -/
def Same (a b : Numeral × Bytes) : Prop := a.1 = b.1 ∧ Respaced a.2 b.2

theorem exists_digits (h : Respaced x y) :
    ∃ ds x' y', digits x = (ds, x') ∧ digits y = (ds, y') ∧ Respaced x' y' := by
  obtain ⟨hds, hrest⟩ := respaced_digits h
  exact ⟨(digits x).1, (digits x).2, (digits y).2, rfl, by rw [hds], hrest⟩

theorem sign_of_ne {c : UInt8} (hplus : c ≠ 43) (hminus : c ≠ 45) (t : Bytes) :
    sign (c :: t) = (false, c :: t) := by
  unfold sign
  split <;> simp_all

theorem sign_of_isDull {t : Bytes} (h : IsDull t) : sign t = (false, t) := by
  cases t with
  | nil => rfl
  | cons c t =>
    have hc := (ne_of_isDull h).2
    exact sign_of_ne (by simp_all) (by simp_all) t

theorem respaced_sign (h : Respaced x y) : (sign x).1 = (sign y).1 ∧ Respaced (sign x).2 (sign y).2 := by
  obtain ⟨c, x', y', -, rfl, rfl, hrest⟩ | ⟨hx, hy⟩ := h.head
  · by_cases hplus : c = 43
    · subst hplus
      exact ⟨rfl, hrest⟩
    by_cases hminus : c = 45
    · subst hminus
      exact ⟨rfl, hrest⟩
    rw [sign_of_ne hplus hminus, sign_of_ne hplus hminus]
    exact ⟨rfl, h⟩
  · rw [sign_of_isDull hx, sign_of_isDull hy]
    exact ⟨rfl, h⟩

theorem readExponent_of_isDull (n : Numeral) {t : Bytes} (h : IsDull t) :
    readExponent n t = some (n, t) := by
  cases t with
  | nil => rfl
  | cons c t =>
    have hc := (ne_of_isDull h).2
    rw [readExponent_cons, if_neg (by simp_all)]

theorem same_readExponent (n : Numeral) (h : Respaced x y) :
    Option.Rel Same (readExponent n x) (readExponent n y) := by
  obtain ⟨c, x', y', -, rfl, rfl, hrest⟩ | ⟨hx, hy⟩ := h.head
  · rw [readExponent_cons, readExponent_cons]
    split_ifs
    · obtain ⟨hsign, hbehind⟩ := respaced_sign hrest
      obtain ⟨ds, x'', y'', hx, hy, hrest⟩ := exists_digits hbehind
      rw [hx, hy, hsign]
      cases ds with
      | nil => exact .none
      | cons d ds => exact .some ⟨rfl, hrest⟩
    · exact .some ⟨rfl, h⟩
  · rw [readExponent_of_isDull n hx, readExponent_of_isDull n hy]
    exact .some ⟨rfl, h⟩

theorem readFraction_of_ne (n : Numeral) {t : Bytes} (h : ∀ c ∈ t.head?, c ≠ 46) :
    readFraction n t = readExponent n t := by
  unfold readFraction
  split
  · exact absurd rfl (h 46 rfl)
  · rfl

theorem same_readFraction (n : Numeral) (h : Respaced x y) :
    Option.Rel Same (readFraction n x) (readFraction n y) := by
  have hother : (∀ c ∈ x.head?, c ≠ 46) → (∀ c ∈ y.head?, c ≠ 46) →
      Option.Rel Same (readFraction n x) (readFraction n y) := by
    intro hx hy
    rw [readFraction_of_ne n hx, readFraction_of_ne n hy]
    exact same_readExponent n h
  obtain ⟨c, x', y', -, rfl, rfl, hrest⟩ | ⟨hx, hy⟩ := h.head
  · by_cases hc : c = 46
    · subst hc
      obtain ⟨ds, x'', y'', hx, hy, hrest⟩ := exists_digits hrest
      simp only [readFraction, hx, hy]
      cases ds with
      | nil => exact .none
      | cons d ds => exact same_readExponent _ hrest
    · exact hother (by simpa using hc) (by simpa using hc)
  · exact hother (ne_of_mem_head? hx (by simp)) (ne_of_mem_head? hy (by simp))

theorem readWhole_cases (negative : Bool) (ds : Bytes) :
    (∀ {t rest}, digits t = (ds, rest) → readWhole negative t = none) ∨
      ∀ {t rest}, digits t = (ds, rest) →
        readWhole negative t = readFraction ⟨negative, ds, none, none⟩ rest := by
  rcases ds with _ | ⟨d, _ | ⟨e, ds⟩⟩
  · exact .inl fun h => by rw [readWhole, h]
  · refine .inr fun h => ?_
    rw [readWhole, h]
    split <;> simp_all
  · by_cases hd : d = 48
    · subst hd
      exact .inl fun h => by rw [readWhole, h]; rfl
    · refine .inr fun h => ?_
      rw [readWhole, h]
      split <;> simp_all

theorem same_readWhole (negative : Bool) (h : Respaced x y) :
    Option.Rel Same (readWhole negative x) (readWhole negative y) := by
  obtain ⟨ds, x', y', hx, hy, hrest⟩ := exists_digits h
  -- whether the digits are refused does not depend on what follows
  obtain hnone | hsome := readWhole_cases negative ds
  · rw [hnone hx, hnone hy]
    exact .none
  · rw [hsome hx, hsome hy]
    exact same_readFraction _ hrest

theorem read?_of_ne {t : Bytes} (h : ∀ c ∈ t.head?, c ≠ 45) : read? t = readWhole false t := by
  unfold read?
  split
  · exact absurd rfl (h 45 rfl)
  · rfl

theorem same_read? (h : Respaced x y) : Option.Rel Same (read? x) (read? y) := by
  have hother : (∀ c ∈ x.head?, c ≠ 45) → (∀ c ∈ y.head?, c ≠ 45) →
      Option.Rel Same (read? x) (read? y) := by
    intro hx hy
    rw [read?_of_ne hx, read?_of_ne hy]
    exact same_readWhole false h
  obtain ⟨c, x', y', -, rfl, rfl, hrest⟩ | ⟨hx, hy⟩ := h.head
  · by_cases hc : c = 45
    · subst hc
      exact same_readWhole true hrest
    · exact hother (by simpa using hc) (by simpa using hc)
  · exact hother (ne_of_mem_head? hx (by simp)) (ne_of_mem_head? hy (by simp))

end Numeral

/-! ### The machine -/

/-- The machine stands between tokens or inside of a number or a word. -/
def Phase.IsOuter : Phase → Prop
  | .text _ | .escape _ | .hex _ _ => False
  | .word letters => ∀ c ∈ letters, isSpace c = false ∧ c ≠ 34
  | _ => True

theorem isOuter_of_ends {p : Phase} (h : p.ends = true) : p.IsOuter := by
  cases p <;> simp_all [Phase.ends, Phase.IsOuter]

theorem isOuter_of_startValue {q : Phase} {stack s : List Frame} {c : UInt8}
    (h : startValue stack c = some (q, s)) : if c = 34 then ∃ isKey, q = .text isKey else q.IsOuter := by
  unfold startValue at h
  split_ifs at h with hquote <;> cases h <;> simp_all [Phase.IsOuter, isSpace]

theorem isOuter_of_afterValue {q : Phase} {stack s : List Frame} {c : UInt8}
    (h : afterValue stack c = some (q, s)) : if c = 34 then ∃ isKey, q = .text isKey else q.IsOuter := by
  unfold afterValue at h
  have hquote : isSpace 34 = false := by decide
  split at h
  · cases h
  all_goals
    split_ifs at h <;> cases h <;> grind [Phase.IsOuter]

theorem isOuter_of_numberStep {p q : Phase} {stack s : List Frame} {c : UInt8}
    (h : (match numberStep p c with
      | some p => some (p, stack)
      | none => if p.ends then afterValue stack c else none) = some (q, s)) :
    if c = 34 then ∃ isKey, q = .text isKey else q.IsOuter := by
  split at h
  · rename_i r hr
    cases h
    have hmem := mem_of_numberStep hr
    have hquote : c ≠ 34 := by
      rintro rfl
      cases p <;> cases hr
    rw [if_neg hquote]
    grind [Phase.IsOuter]
  · split_ifs at h
    exact isOuter_of_afterValue h

/-- A quote opens a string, and any other byte leaves the machine outside of strings. -/
theorem isOuter_of_step {p q : Phase} {stack s : List Frame} {c : UInt8} (hp : p.IsOuter)
    (h : step p stack c = some (q, s)) : if c = 34 then ∃ isKey, q = .text isKey else q.IsOuter := by
  have hstart := @isOuter_of_startValue q stack s c
  have hquote : isSpace 34 = false := by decide
  cases p with
  | after => exact isOuter_of_afterValue h
  | text | escape | hex => cases hp
  | word letters =>
    rcases letters with _ | ⟨x, _ | ⟨y, letters⟩⟩ <;> simp only [step] at h <;>
      grind [Phase.IsOuter]
  | value | item | member | key | colon => simp only [step] at h; grind [Phase.IsOuter]
  | minus | zero | whole | point | fraction | mark | sign | exponent => exact isOuter_of_numberStep h

theorem afterValue_space {c : UInt8} (hc : isSpace c = true) (stack : List Frame) :
    afterValue stack c = if stack.isEmpty then none else some (.after, stack) := by
  rcases stack with _ | ⟨_ | _, stack⟩ <;> simp [afterValue, hc]

theorem numberStep_space {c : UInt8} (hc : isSpace c = true) (p : Phase) : numberStep p c = none := by
  cases h : numberStep p c with
  | none => rfl
  | some q => simp [(numberStep_eq_some h).2] at hc

/-- What white space does to the machine outside of strings. -/
theorem step_space {p : Phase} (hp : p.IsOuter) (stack : List Frame) {c : UInt8}
    (hc : isSpace c = true) : step p stack c =
      if p.ends then (if stack.isEmpty then none else some (.after, stack))
      else if p ∈ [Phase.value, .item, .member, .key, .colon] then some (p, stack) else none := by
  cases p with
  | after => exact afterValue_space hc stack
  | text | escape | hex => cases hp
  | word letters =>
    have hne : ∀ x ∈ letters, c ≠ x := by
      rintro x hx rfl
      simp [(hp c hx).1] at hc
    rcases letters with _ | ⟨x, _ | ⟨y, letters⟩⟩ <;> simp_all [step, Phase.ends]
  | value | item | member | key | colon => simp [step, hc, Phase.ends]
  | minus | zero | whole | point | fraction | mark | sign | exponent =>
    simp [step, numberStep_space hc, afterValue_space hc, Phase.ends]

/-- White space ends no value that has not ended. -/
theorem step_space_eq_some {p q : Phase} {stack s : List Frame} {c : UInt8} (hp : p.IsOuter)
    (hc : isSpace c = true) (h : step p stack c = some (q, s)) :
    q.IsOuter ∧ (p.ends && stack.isEmpty) = false ∧ (q.ends && s.isEmpty) = false := by
  rw [step_space hp stack hc] at h
  split_ifs at h with hends hstack hmem
  · cases h
    simpa [hends, hstack] using isOuter_of_ends rfl
  · cases h
    simpa [hends] using hp

theorem extent_of_isSpaces {p : Phase} (hp : p.IsOuter) (stack : List Frame) (hx : IsSpaces x) :
    extent p stack x = if p.ends && stack.isEmpty then some x else none := by
  induction x generalizing p stack with
  | nil => rfl
  | cons c x ih =>
    rw [extent]
    split
    · rename_i q s hstep
      obtain ⟨hq, hbefore, hbehind⟩ := step_space_eq_some hp (hx c (by simp)) hstep
      rw [ih hq s fun d hd => hx d (by simp [hd]), hbefore, hbehind]
      rfl
    · rfl

theorem Respaced.extent {p : Phase} (hp : p.IsOuter) (stack : List Frame) (h : Respaced x y) :
    Option.Rel Respaced (extent p stack x) (extent p stack y) := by
  induction h generalizing p stack with
  | ends hx hy =>
    rw [extent_of_isSpaces hp stack hx, extent_of_isSpaces hp stack hy]
    split
    · exact .some (.ends hx hy)
    · exact .none
  | @space c d x y hc hd h ih =>
    have hstep : step p stack c = step p stack d := by rw [step_space hp stack hc, step_space hp stack hd]
    simp only [Json.extent, hstep]
    split
    · rename_i q s hq
      exact ih (step_space_eq_some hp hd hq).1 s
    · split
      · exact .some (.space hc hd h)
      · exact .none
  | @token c x y hc hquote h ih =>
    simp only [Json.extent]
    split
    · rename_i q s hstep
      have hq := isOuter_of_step hp hstep
      exact ih (by simpa [hquote] using hq) s
    · split
      · exact .some (.token hc hquote h)
      · exact .none
  | @text body x y hbody h ih =>
    simp only [Json.extent]
    split
    · rename_i q s hstep
      obtain ⟨isKey, rfl⟩ : ∃ isKey, q = .text isKey := by simpa using isOuter_of_step hp hstep
      rw [hbody.extent, hbody.extent]
      exact ih (by cases isKey <;> trivial) s
    · split
      · exact .some (.text hbody h)
      · exact .none

end AgentRelay.Json
