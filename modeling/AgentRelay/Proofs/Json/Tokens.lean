import AgentRelay.Proofs.Job.Body
import AgentRelay.Proofs.Json.Grammar

/-!
# Tokens that readers take

Readers take strings and numbers apart, and the machine of `extent` passes them over byte by byte. Behind
a token that was taken, the machine stands where it stands behind any token of its kind.

* `stringRest_eq_ok`: what is read as a string stands in quotes as the grammar says.
* `Numeral.read?_extent`: what is read as a number is passed over.
-/

namespace AgentRelay.Json

/-! ### White space and words -/

theorem skipSpace_suffix (b : Bytes) : skipSpace b <:+ b := List.dropWhile_suffix _

theorem exists_isSpaces_append (b : Bytes) : ∃ t, IsSpaces t ∧ b = t ++ skipSpace b :=
  ⟨b.takeWhile isSpace, fun _ h => List.mem_takeWhile_imp h, List.takeWhile_append_dropWhile.symm⟩

theorem extent_skipSpace {p : Phase} {stack : List Frame}
    (hp : p ∈ [Phase.value, .item, .member, .key, .colon]) (b : Bytes) :
    extent p stack (skipSpace b) = extent p stack b := by
  obtain ⟨t, ht, heq⟩ := exists_isSpaces_append b
  conv_rhs => rw [heq, extent_spaces ht hp]

theorem extent_after_skipSpace (k : Frame) (stack : List Frame) (b : Bytes) :
    extent .after (k :: stack) (skipSpace b) = extent .after (k :: stack) b := by
  obtain ⟨t, ht, heq⟩ := exists_isSpaces_append b
  conv_rhs => rw [heq, extent_after_spaces ht]

theorem dropWord?_eq_some {w b rest : Bytes} : dropWord? w b = some rest ↔ b = w ++ rest := by
  induction w generalizing b with
  | nil => simp [dropWord?]
  | cons x w ih =>
    cases b with
    | nil => simp [dropWord?]
    | cons c b =>
      by_cases hc : c = x
      · simp [dropWord?, hc, ih]
      · simp [dropWord?, hc]

/-! ### Strings -/

/-- What the search for the closing quote makes sure of: no control characters, and a byte behind every
backslash. -/
inductive IsRaw : Bytes → Prop
  | nil : IsRaw []
  | plain {b : UInt8} {t : Bytes} (hb : IsPlain b) (h : IsRaw t) : IsRaw (b :: t)
  | escaped (e : UInt8) {t : Bytes} (h : IsRaw t) : IsRaw (92 :: e :: t)

theorem IsRaw.of_cons {b : UInt8} {t : Bytes} (h : IsRaw (b :: t)) (hb : b ≠ 92) : IsPlain b ∧ IsRaw t := by
  cases h with
  | plain hb h => exact ⟨hb, h⟩
  | escaped => contradiction

theorem IsRaw.of_escaped {e : UInt8} {t : Bytes} (h : IsRaw (92 :: e :: t)) : IsRaw t := by
  cases h with
  | plain hb => exact absurd rfl hb.2.1
  | escaped _ h => exact h

theorem bodyOnto_eq_some {done b body rest : Bytes} (h : bodyOnto done b = some (body, rest)) :
    ∃ t, IsRaw t ∧ body = done.reverse ++ t ∧ b = t ++ 34 :: rest := by
  fun_induction bodyOnto done b with
  | case1 => cases h
  | case2 done b tail hb =>
    cases h
    exact ⟨[], .nil, by simp, by simp_all⟩
  | case3 => cases h
  | case4 done b hquote hb e tail ih =>
    obtain ⟨t, ht, rfl, rfl⟩ := ih h
    exact ⟨92 :: e :: t, .escaped e ht, by simp_all, by simp_all⟩
  | case5 => cases h
  | case6 done b tail hquote hb hcontrol ih =>
    obtain ⟨t, ht, rfl, rfl⟩ := ih h
    exact ⟨b :: t, .plain ⟨by simpa using hquote, by simpa using hb, hcontrol⟩ ht, by simp, rfl⟩

theorem isSome_of_hexWord? {a b c d : UInt8} {n : Nat} (h : hexWord? a b c d = some n) :
    ∀ x ∈ [a, b, c, d], (Bytes.hexValue? x).isSome := by
  simp only [hexWord?, Option.bind_eq_bind, Option.bind_eq_some_iff] at h
  obtain ⟨_, ha, _, hb, _, hc, _, hd, -⟩ := h
  simp [ha, hb, hc, hd]

theorem ne_backslash_of_hexValue? {x : UInt8} (h : (Bytes.hexValue? x).isSome) : x ≠ 92 := by
  rintro rfl
  exact absurd h (by decide)

/-- The digits of an escape are no escapes themselves. -/
theorem IsRaw.of_code {a b c d : UInt8} {t : Bytes} (h : IsRaw (92 :: 117 :: a :: b :: c :: d :: t))
    (hx : ∀ x ∈ [a, b, c, d], (Bytes.hexValue? x).isSome) : IsRaw t := by
  have hne : ∀ x ∈ [a, b, c, d], x ≠ 92 := fun x hmem => ne_backslash_of_hexValue? (hx x hmem)
  have h := (h.of_escaped.of_cons (hne a (by simp))).2
  have h := (h.of_cons (hne b (by simp))).2
  have h := (h.of_cons (hne c (by simp))).2
  exact (h.of_cons (hne d (by simp))).2

/-- When its escapes can be resolved, what stands between two quotes is a body. -/
theorem IsRaw.isBody {done t : Bytes} (h : IsRaw t) (hresolved : (unescapeOnto done t).isSome) :
    IsBody t := by
  fun_induction unescapeOnto done t with
  | case1 => exact .nil
  | case2 => cases hresolved
  | case3 done a b c d rest n hn _ ih =>
    have hx := isSome_of_hexWord? hn
    exact .code hx (ih (h.of_code hx) hresolved)
  | case4 => cases hresolved
  | case5 => cases hresolved
  | case6 => cases hresolved
  | case7 done a b c d n hn _ _ a' b' c' d' rest m hm _ ih =>
    have hx := isSome_of_hexWord? hn
    have hx' := isSome_of_hexWord? hm
    exact .code hx (.code hx' (ih ((h.of_code hx).of_code hx') hresolved))
  | case8 => cases hresolved
  | case9 => cases hresolved
  | case10 done e rest _ x hx ih => exact .short (by simp [hx]) (ih h.of_escaped hresolved)
  | case11 => cases hresolved
  | case12 done b rest _ hpair hlast ih =>
    have hb : b ≠ 92 := by
      rintro rfl
      cases rest with
      | nil => exact hlast rfl rfl
      | cons e rest => exact hpair e rest rfl rfl
    obtain ⟨hplain, hrest⟩ := h.of_cons hb
    exact .plain hplain (ih hrest hresolved)

/-- The text of a string is a body up to the closing quote. -/
theorem stringRest_eq_ok {n : Nat} {b rest : Bytes} {s : String} (h : stringRest n b = .ok (s, rest)) :
    ∃ body, IsBody body ∧ b = body ++ 34 :: rest := by
  unfold stringRest at h
  split at h
  · cases h
  · rename_i body tail hbody
    split at h
    · cases h
    · rename_i text htext
      cases h
      obtain ⟨t, ht, hdone, rfl⟩ := bodyOnto_eq_some hbody
      obtain rfl : body = t := by simpa using hdone
      obtain ⟨resolved, hresolved, -⟩ := Option.bind_eq_some_iff.1 htext
      have hsome : (unescapeOnto [] body).isSome := Option.isSome_of_eq_some hresolved
      exact ⟨body, ht.isBody hsome, rfl⟩

/-! ### Numbers -/

/-- A byte of a number leads to a phase of numbers. -/
theorem mem_of_numberStep {p q : Phase} {c : UInt8} (h : numberStep p c = some q) :
    q ∈ [Phase.zero, .whole, .point, .fraction, .mark, .sign, .exponent] := by
  unfold numberStep at h
  grind

namespace Numeral

theorem digits_eq {b ds rest : Bytes} (h : digits b = (ds, rest)) :
    b = ds ++ rest ∧ (∀ d ∈ ds, Bytes.isDigit d = true) ∧
      ∀ c ∈ rest.head?, Bytes.isDigit c = false := by
  have hrest : rest = b.dropWhile Bytes.isDigit := by
    obtain ⟨rfl, rfl⟩ := Prod.mk.inj h
    conv_lhs => rw [← List.takeWhile_append_dropWhile (p := Bytes.isDigit) (l := b)]
    rw [List.drop_append_of_le_length (by simp)]
    simp
  obtain rfl : b.takeWhile Bytes.isDigit = ds := (Prod.mk.inj h).1
  refine ⟨by rw [hrest, List.takeWhile_append_dropWhile], fun d hd => List.mem_takeWhile_imp hd, ?_⟩
  intro c hc
  have hhead := List.head?_dropWhile_not Bytes.isDigit b
  rw [← hrest, hc] at hhead
  simpa using hhead

/-- Behind digits that cannot go on the machine stands where any value ends. -/
theorem digits_extent {p q : Phase} {stack : List Frame} {b ds rest : Bytes}
    (h : digits b = (ds, rest)) (hds : ds ≠ [])
    (hp : ∀ d, Bytes.isDigit d = true → step p stack d = some (q, stack))
    (hq : q ∈ [Phase.whole, .fraction, .exponent]) :
    rest <:+ b ∧ extent p stack b = extent q stack rest := by
  obtain ⟨rfl, hall, -⟩ := digits_eq h
  exact ⟨List.suffix_append _ _, IsDigits.extent ⟨hds, hall⟩ hp hq rest⟩

/-- The sign in front, if there is one, and what follows. -/
def sign : Bytes → Bool × Bytes
  | 43 :: rest => (false, rest)
  | 45 :: rest => (true, rest)
  | rest => (false, rest)

theorem sign_cases (b : Bytes) : (sign b).2 = b ∨ ∃ s ∈ [43, 45], b = s :: (sign b).2 := by
  unfold sign
  split <;> simp

theorem readExponent_cons (n : Numeral) (c : UInt8) (t : Bytes) : readExponent n (c :: t) =
    if c == 101 || c == 69 then
      match digits (sign t).2 with
      | ([], _) => none
      | (ds, rest) => some (⟨n.negative, n.whole, n.fraction, some ((sign t).1, ds)⟩, rest)
    else some (n, c :: t) := rfl

/-- The digits of an exponent stand behind its letter and its sign. -/
theorem readExponent_mark {m n : Numeral} {c : UInt8} {b rest : Bytes} (hc : (c == 101 || c == 69) = true)
    (h : readExponent m (c :: b) = some (n, rest)) : ∃ ds, digits (sign b).2 = (ds, rest) ∧ ds ≠ [] := by
  rw [readExponent_cons, if_pos hc] at h
  split at h
  · cases h
  · rename_i ds tail hne hds
    cases h
    exact ⟨ds, hds, hne⟩

/-- Behind the letter of an exponent, its sign and its digits are passed over. -/
theorem mark_extent {b ds rest : Bytes} (hds : digits (sign b).2 = (ds, rest)) (hne : ds ≠ [])
    (stack : List Frame) : rest <:+ b ∧ extent .mark stack b = extent .after stack rest := by
  have hstep : ∀ q ∈ [Phase.mark, .sign], ∀ d, Bytes.isDigit d = true →
      step q stack d = some (.exponent, stack) := by
    intro q hq d hd
    simp only [List.mem_cons, List.not_mem_nil, or_false] at hq
    obtain rfl | rfl := hq <;> simp only [step, numberStep, hd] <;> grind [Bytes.isDigit]
  have hend : extent .exponent stack rest = extent .after stack rest :=
    extent_of_numberStep (by simp) fun d hd => by simp [numberStep, (digits_eq hds).2.2 d hd]
  obtain hb | ⟨s, hs, hb⟩ := sign_cases b
  · rw [hb] at hds
    obtain ⟨hsuffix, hextent⟩ := digits_extent hds hne (hstep .mark (by simp)) (by simp)
    exact ⟨hsuffix, hextent.trans hend⟩
  · obtain ⟨hsuffix, hextent⟩ := digits_extent hds hne (hstep .sign (by simp)) (by simp)
    have hsign : step .mark stack s = some (.sign, stack) := by
      simp only [List.mem_cons, List.not_mem_nil, or_false] at hs
      obtain rfl | rfl := hs <;> rfl
    rw [hb, extent_cons hsign]
    exact ⟨hsuffix.trans (List.suffix_cons _ _), hextent.trans hend⟩

/-- The exponent that is read, if there is one, is passed over. -/
theorem readExponent_extent {m n : Numeral} {p : Phase} {b rest : Bytes}
    (hp : p ∈ [Phase.zero, .whole, .fraction])
    (hb : ∀ c ∈ b.head?, Bytes.isDigit c = false ∧ (c = 46 → p = .fraction))
    (h : readExponent m b = some (n, rest)) (stack : List Frame) :
    rest <:+ b ∧ extent p stack b = extent .after stack rest := by
  have hends : p ∈ [Phase.zero, .whole, .fraction, .exponent] := List.mem_append_left [Phase.exponent] hp
  simp only [List.mem_cons, List.not_mem_nil, or_false] at hp
  cases b with
  | nil =>
    cases h
    exact ⟨List.suffix_refl _, extent_of_numberStep hends (by simp)⟩
  | cons c b =>
    obtain ⟨hdigit, hpoint⟩ := hb c rfl
    by_cases hc : (c == 101 || c == 69) = true
    · obtain ⟨ds, hds, hne⟩ := readExponent_mark hc h
      obtain ⟨hsuffix, hextent⟩ := mark_extent hds hne stack
      have hmark : step p stack c = some (.mark, stack) := by
        simp only [Bool.or_eq_true, beq_iff_eq] at hc
        obtain rfl | rfl | rfl := hp <;> obtain rfl | rfl := hc <;> rfl
      exact ⟨hsuffix.trans (List.suffix_cons _ _), (extent_cons hmark _).trans hextent⟩
    · rw [readExponent_cons, if_neg hc] at h
      cases h
      refine ⟨List.suffix_refl _, extent_of_numberStep hends ?_⟩
      rintro _ ⟨⟩
      obtain rfl | rfl | rfl := hp <;> simp_all [numberStep]

/-- The fraction and the exponent that are read are passed over. -/
theorem readFraction_extent {m n : Numeral} {p : Phase} {b rest : Bytes}
    (hp : p ∈ [Phase.zero, .whole]) (hb : ∀ c ∈ b.head?, Bytes.isDigit c = false)
    (h : readFraction m b = some (n, rest)) (stack : List Frame) :
    rest <:+ b ∧ extent p stack b = extent .after stack rest := by
  unfold readFraction at h
  split at h
  · rename_i tail
    split at h
    · cases h
    · rename_i ds behind hne hds
      have hpoint : step p stack 46 = some (.point, stack) := by
        simp only [List.mem_cons, List.not_mem_nil, or_false] at hp
        obtain rfl | rfl := hp <;> rfl
      have hdigit : ∀ d, Bytes.isDigit d = true → step .point stack d = some (.fraction, stack) :=
        fun d hd => by simp [step, numberStep, hd]
      obtain ⟨hsuffix, hextent⟩ := digits_extent hds hne hdigit (by simp)
      obtain ⟨hsuffix', hextent'⟩ := readExponent_extent (p := .fraction) (by simp)
        (fun c hc => ⟨(digits_eq hds).2.2 c hc, fun _ => rfl⟩) h stack
      rw [extent_cons hpoint, hextent, hextent']
      exact ⟨hsuffix'.trans (hsuffix.trans (List.suffix_cons _ _)), rfl⟩
  · rename_i hne
    refine readExponent_extent (List.mem_append_left [Phase.fraction] hp) (fun c hc => ⟨hb c hc, ?_⟩) h stack
    rintro rfl
    cases b with
    | nil => cases hc
    | cons d b =>
      cases hc
      exact absurd rfl (hne b)

/-- The literal whose sign has been read is passed over. -/
theorem readWhole_extent {negative : Bool} {n : Numeral} {p : Phase} {b rest : Bytes}
    (hp : p ∈ [Phase.value, .minus]) (h : readWhole negative b = some (n, rest)) (stack : List Frame) :
    rest <:+ b ∧ extent p stack b = extent .after stack rest := by
  unfold readWhole at h
  split at h
  · cases h
  · cases h
  · rename_i ds behind hne hzero hds
    obtain ⟨rfl, hall, hbehind⟩ := digits_eq hds
    obtain ⟨hsuffix, -⟩ := readFraction_extent (p := .whole) (by simp) hbehind h stack
    have hwhole : IsWhole ds := by
      obtain ⟨d, ds, rfl⟩ := List.exists_cons_of_ne_nil hne
      by_cases hd : d = 48
      · left
        cases ds with
        | nil => rw [hd]
        | cons e ds => exact absurd (by rw [hd]) (hzero e ds)
      · exact .inr ⟨⟨hne, hall⟩, by simpa using hd⟩
    exact ⟨hsuffix.trans (List.suffix_append _ _),
      hwhole.extent hp fun q hq => (readFraction_extent hq hbehind h stack).2⟩

/-- The literal that is read is passed over. -/
theorem read?_extent {n : Numeral} {b rest : Bytes} (h : read? b = some (n, rest)) (stack : List Frame) :
    rest <:+ b ∧ extent .value stack b = extent .after stack rest := by
  unfold read? at h
  split at h
  · obtain ⟨hsuffix, hextent⟩ := readWhole_extent (p := .minus) (by simp) h stack
    exact ⟨hsuffix.trans (List.suffix_cons _ _), (extent_cons rfl _).trans hextent⟩
  · exact readWhole_extent (by simp) h stack

end Numeral

end AgentRelay.Json
