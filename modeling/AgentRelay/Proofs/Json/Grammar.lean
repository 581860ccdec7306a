import AgentRelay.Proofs.Json.Extent

/-!
# The grammar of JSON

JSON texts by their grammar, with white space between all tokens, every spelling of numbers and every
escape in strings. The machine that passes values over is a different description of the same texts:
whatever the grammar makes, at any depth, it passes over as a whole.

* `IsJson` is the grammar, one rule for arrays and objects alike.
* `IsJson.passes` runs the machine over a text of the grammar, `IsJson.ignored` passes a value over.
-/

namespace AgentRelay.Json

/-! ### The grammar -/

/-- Any amount of white space. -/
def IsSpaces (t : Bytes) : Prop := ∀ b ∈ t, isSpace b = true

/-- What stands between the quotes of a string. -/
inductive IsBody : Bytes → Prop
  | nil : IsBody []
  | plain {b : UInt8} {body : Bytes} (hb : IsPlain b) (h : IsBody body) : IsBody (b :: body)
  | short {e : UInt8} {body : Bytes} (he : (shortEscape? e).isSome) (h : IsBody body) :
      IsBody (92 :: e :: body)
  | code {a b c d : UInt8} {body : Bytes} (hx : ∀ x ∈ [a, b, c, d], (Bytes.hexValue? x).isSome)
      (h : IsBody body) : IsBody (92 :: 117 :: a :: b :: c :: d :: body)

/-- One digit or more. -/
def IsDigits (ds : Bytes) : Prop := ds ≠ [] ∧ ∀ d ∈ ds, Bytes.isDigit d = true

instance (ds : Bytes) : Decidable (IsDigits ds) :=
  decidable_of_iff (ds ≠ [] ∧ ds.all Bytes.isDigit = true) (by simp [IsDigits])

/-- The digits in front of the point: a single zero, or digits that do not start with one. -/
def IsWhole (t : Bytes) : Prop := t = [48] ∨ IsDigits t ∧ t.head? ≠ some 48

/-- Nothing, or a point with digits behind it. -/
def IsFraction (t : Bytes) : Prop := t = [] ∨ ∃ ds, IsDigits ds ∧ t = 46 :: ds

/-- Nothing, or a letter with a sign, if any, and digits behind it. -/
def IsExponent (t : Bytes) : Prop :=
  t = [] ∨ ∃ e ∈ [101, 69], ∃ sign ∈ [[], [43], [45]], ∃ ds, IsDigits ds ∧ t = e :: (sign ++ ds)

/-- A number. -/
inductive IsNumber : Bytes → Prop
  | mk {sign whole fraction exponent : Bytes} (hsign : sign ∈ [[], [45]]) (hwhole : IsWhole whole)
      (hfraction : IsFraction fraction) (hexponent : IsExponent exponent) :
      IsNumber (sign ++ (whole ++ (fraction ++ exponent)))

/-- The words `null`, `true` and `false`. -/
def words : List Bytes := [[110, 117, 108, 108], [116, 114, 117, 101], [102, 97, 108, 115, 101]]

/-- The byte that opens a bracket. -/
def Frame.opening : Frame → UInt8
  | .array => 91
  | .object => 123

/-- The byte that closes a bracket. -/
def Frame.closing : Frame → UInt8
  | .array => 93
  | .object => 125

/-- The parts of a text. -/
inductive Part
  | value
  /-- One value of an array or one member of an object, with white space around it. -/
  | element (k : Frame)
  /-- One or more of them with commas between them. -/
  | elements (k : Frame)

/-- The texts of JSON. -/
inductive IsJson : Part → Bytes → Prop
  | word {t : Bytes} (h : t ∈ words) : IsJson .value t
  | number {t : Bytes} (h : IsNumber t) : IsJson .value t
  | string {body : Bytes} (h : IsBody body) : IsJson .value (34 :: (body ++ [34]))
  | empty {k : Frame} {t : Bytes} (h : IsSpaces t) :
      IsJson .value (k.opening :: (t ++ [k.closing]))
  | bracket {k : Frame} {t : Bytes} (h : IsJson (.elements k) t) :
      IsJson .value (k.opening :: (t ++ [k.closing]))
  | item {before t after : Bytes} (hbefore : IsSpaces before) (h : IsJson .value t)
      (hafter : IsSpaces after) : IsJson (.element .array) (before ++ (t ++ after))
  | member {before body between ahead t after : Bytes} (hbefore : IsSpaces before)
      (hbody : IsBody body) (hbetween : IsSpaces between) (hahead : IsSpaces ahead)
      (h : IsJson .value t) (hafter : IsSpaces after) :
      IsJson (.element .object)
        (before ++ 34 :: (body ++ 34 :: (between ++ 58 :: (ahead ++ (t ++ after)))))
  | last {k : Frame} {t : Bytes} (h : IsJson (.element k) t) : IsJson (.elements k) t
  | more {k : Frame} {t ts : Bytes} (h : IsJson (.element k) t) (hs : IsJson (.elements k) ts) :
      IsJson (.elements k) (t ++ 44 :: ts)

/-! ### Single tokens -/

/-- What follows is not part of the token in front: nothing, white space, or what closes a value. -/
def Bounds (rest : Bytes) : Prop := ∀ b ∈ rest.head?, isSpace b = true ∨ b = 44 ∨ b = 93 ∨ b = 125

theorem Closes.bounds {rest : Bytes} (h : Closes rest) : Bounds rest := fun b hb => .inr (h b hb)

theorem IsSpaces.bounds {t rest : Bytes} (h : IsSpaces t) (hrest : Bounds rest) :
    Bounds (t ++ rest) := by
  cases t with
  | nil => exact hrest
  | cons b t => exact fun c hc => .inl (by simpa using h c (by simp_all))

theorem bounds_closing (k : Frame) (rest : Bytes) : Bounds (k.closing :: rest) := by
  cases k <;> simp [Bounds, Frame.closing]

theorem skipSpace_append {t : Bytes} (h : IsSpaces t) (rest : Bytes) :
    skipSpace (t ++ rest) = skipSpace rest := by
  rw [skipSpace, List.dropWhile_append_of_pos h]
  rfl

theorem skipSpace_append_cons {t tail : Bytes} {c : UInt8} (h : skipSpace t = c :: tail)
    (rest : Bytes) : skipSpace (t ++ rest) = c :: (tail ++ rest) := by
  rw [skipSpace] at h ⊢
  rw [List.dropWhile_append, h]
  rfl

theorem extent_cons {p q : Phase} {stack s : List Frame} {b : UInt8}
    (h : step p stack b = some (q, s)) (rest : Bytes) :
    extent p stack (b :: rest) = extent q s rest := by
  simp [extent, h]

/-- The machine stays where it is over bytes that do not move it. -/
theorem extent_stays {p : Phase} {stack : List Frame} {t : Bytes}
    (h : ∀ b ∈ t, step p stack b = some (p, stack)) (rest : Bytes) :
    extent p stack (t ++ rest) = extent p stack rest := by
  induction t with
  | nil => rfl
  | cons b t ih =>
    rw [List.cons_append, extent_cons (h b (by simp))]
    exact ih fun c hc => h c (by simp [hc])

/-- The phase before an element or a closing bracket. -/
def Frame.first : Frame → Phase
  | .array => .item
  | .object => .member

/-- The phase before an element. -/
def Frame.next : Frame → Phase
  | .array => .value
  | .object => .key

/-- White space moves the machine nowhere between tokens. -/
theorem extent_spaces {p : Phase} {stack : List Frame} {t : Bytes} (h : IsSpaces t)
    (hp : p ∈ [Phase.value, .item, .member, .key, .colon]) (rest : Bytes) :
    extent p stack (t ++ rest) = extent p stack rest := by
  refine extent_stays (fun b hb => ?_) rest
  simp only [List.mem_cons, List.not_mem_nil, or_false] at hp
  obtain rfl | rfl | rfl | rfl | rfl := hp <;> simp [step, h b hb]

theorem extent_after_spaces {k : Frame} {stack : List Frame} {t : Bytes} (h : IsSpaces t)
    (rest : Bytes) : extent .after (k :: stack) (t ++ rest) = extent .after (k :: stack) rest := by
  refine extent_stays (fun b hb => ?_) rest
  cases k <;> simp [step, afterValue, h b hb]

/-- Outside of brackets the value is over. -/
theorem extent_after_nil (rest : Bytes) : extent .after [] rest = some rest := by
  cases rest <;> simp [extent, step, afterValue, Phase.ends]

/-! ### Strings -/

theorem IsBody.extent {body : Bytes} (h : IsBody body) (isKey : Bool) (stack : List Frame)
    (rest : Bytes) :
    extent (.text isKey) stack (body ++ 34 :: rest) = extent (.afterText isKey) stack rest := by
  induction h with
  | nil => exact extent_cons (by simp [step]) rest
  | plain hb _ ih =>
    obtain ⟨hquote, hbackslash, hcontrol⟩ := hb
    rw [List.cons_append, extent_cons (q := .text isKey) (s := stack)
      (by simp [step, hquote, hbackslash, hcontrol]), ih]
  | @short e body he _ ih =>
    have hstep : step (.escape isKey) stack e = some (.text isKey, stack) := by
      unfold shortEscape? at he
      unfold step
      grind
    rw [List.cons_append, List.cons_append, extent_cons (q := .escape isKey) (s := stack) (by simp [step]),
      extent_cons hstep, ih]
  | @code a b c d body hx _ ih =>
    have hdigit : ∀ x ∈ [a, b, c, d], (Bytes.hexValue? x).isNone = false := fun x hx' => by
      simpa using hx x hx'
    have hlast : step (.hex isKey 0) stack d = some (.text isKey, stack) := by
      simp [step, hdigit d (by simp)]
    have hstep : ∀ x ∈ [a, b, c, d], ∀ left,
        step (.hex isKey (left + 1)) stack x = some (.hex isKey left, stack) := fun x hx' left => by
      simp [step, hdigit x hx']
    simp only [List.cons_append]
    rw [extent_cons (q := .escape isKey) (s := stack) (by simp [step]),
      extent_cons (q := .hex isKey 3) (s := stack) (by simp [step]), extent_cons (hstep a (by simp) 2),
      extent_cons (hstep b (by simp) 1), extent_cons (hstep c (by simp) 0), extent_cons hlast, ih]

/-- The closing quote is found behind a body. -/
theorem IsBody.bodyOnto {body : Bytes} (h : IsBody body) (done rest : Bytes) :
    bodyOnto done (body ++ 34 :: rest) = some (done.reverse ++ body, rest) := by
  induction h generalizing done with
  | nil => simpa using bodyOnto_quote done rest
  | plain hb _ ih => simp [bodyOnto_plain hb, ih]
  | short he _ ih => simp [bodyOnto_backslash, ih]
  | @code a b c d body hx _ ih =>
    have hplain : ∀ x ∈ [a, b, c, d], IsPlain x := fun x hx' => by
      have := hx x hx'
      unfold Bytes.hexValue? at this
      unfold IsPlain
      grind
    simp [bodyOnto_backslash, bodyOnto_plain (hplain a (by simp)), bodyOnto_plain (hplain b (by simp)),
      bodyOnto_plain (hplain c (by simp)), bodyOnto_plain (hplain d (by simp)), ih]

theorem IsBody.body? {body : Bytes} (h : IsBody body) (rest : Bytes) :
    body? (body ++ 34 :: rest) = some (body, rest) := by
  simpa [Json.body?] using h.bodyOnto [] rest

/-! ### Numbers -/

/-- Where a number cannot go on, the machine is as far as behind any other value. -/
theorem extent_of_numberStep {p : Phase} {stack : List Frame} {rest : Bytes}
    (hp : p ∈ [Phase.zero, .whole, .fraction, .exponent])
    (h : ∀ c ∈ rest.head?, numberStep p c = none) : extent p stack rest = extent .after stack rest := by
  simp only [List.mem_cons, List.not_mem_nil, or_false] at hp
  cases rest with
  | nil => obtain rfl | rfl | rfl | rfl := hp <;> rfl
  | cons c rest =>
    have hnone := h c rfl
    have hstep : step p stack c = step .after stack c := by
      obtain rfl | rfl | rfl | rfl := hp <;> simp [step, hnone, Phase.ends]
    obtain rfl | rfl | rfl | rfl := hp <;> simp only [extent, hstep] <;> rfl

/-- A number goes on with none of the bytes that can follow it. -/
theorem extent_bounds {p : Phase} {stack : List Frame} {rest : Bytes}
    (hp : p ∈ [Phase.zero, .whole, .fraction, .exponent]) (hrest : Bounds rest) :
    extent p stack rest = extent .after stack rest := by
  refine extent_of_numberStep hp fun b hb => ?_
  have hb := hrest b hb
  simp only [List.mem_cons, List.not_mem_nil, or_false] at hp
  obtain rfl | rfl | rfl | rfl := hp <;> simp only [numberStep] <;> grind [isSpace, Bytes.isDigit]

/-- Digits, where digits go on. -/
theorem extent_digits {p : Phase} {stack : List Frame} {ds : Bytes}
    (hp : p ∈ [Phase.whole, .fraction, .exponent]) (hds : ∀ d ∈ ds, Bytes.isDigit d = true)
    (rest : Bytes) : extent p stack (ds ++ rest) = extent p stack rest := by
  refine extent_stays (fun d hd => ?_) rest
  simp only [List.mem_cons, List.not_mem_nil, or_false] at hp
  obtain rfl | rfl | rfl := hp <;> simp [step, numberStep, hds d hd]

/-- Digits, where the first of them leads to where they go on. -/
theorem IsDigits.extent {p q : Phase} {stack : List Frame} {ds : Bytes} (h : IsDigits ds)
    (hp : ∀ d, Bytes.isDigit d = true → step p stack d = some (q, stack))
    (hq : q ∈ [Phase.whole, .fraction, .exponent]) (rest : Bytes) :
    extent p stack (ds ++ rest) = extent q stack rest := by
  obtain ⟨hne, hds⟩ := h
  cases ds with
  | nil => contradiction
  | cons d ds =>
    rw [List.cons_append, extent_cons (hp d (hds d (by simp)))]
    exact extent_digits hq (fun c hc => hds c (by simp [hc])) rest

theorem IsExponent.extent {p : Phase} {stack : List Frame} {t rest : Bytes} (h : IsExponent t)
    (hp : p ∈ [Phase.zero, .whole, .fraction]) (hrest : Bounds rest) :
    extent p stack (t ++ rest) = extent .after stack rest := by
  obtain rfl | ⟨e, he, sign, hsign, ds, hds, rfl⟩ := h
  · exact extent_bounds (by simp at hp ⊢; tauto) hrest
  · have hmark : step p stack e = some (.mark, stack) := by
      simp only [List.mem_cons, List.not_mem_nil, or_false] at hp he
      obtain rfl | rfl | rfl := hp <;> obtain rfl | rfl := he <;> rfl
    have hdigits : ∀ q ∈ [Phase.mark, .sign], ∀ d, Bytes.isDigit d = true →
        step q stack d = some (.exponent, stack) := by
      intro q hq d hd
      simp only [List.mem_cons, List.not_mem_nil, or_false] at hq
      obtain rfl | rfl := hq <;> simp only [step, numberStep, hd] <;> grind [Bytes.isDigit]
    have hend : Json.extent .exponent stack rest = Json.extent .after stack rest :=
      extent_bounds (by simp) hrest
    rw [List.cons_append, extent_cons hmark, List.append_assoc]
    simp only [List.mem_cons, List.not_mem_nil, or_false] at hsign
    obtain rfl | rfl | rfl := hsign
    · exact (hds.extent (hdigits .mark (by simp)) (by simp) rest).trans hend
    all_goals
      rw [List.singleton_append, extent_cons (q := .sign) (s := stack) rfl]
      exact (hds.extent (hdigits .sign (by simp)) (by simp) rest).trans hend

theorem IsFraction.extent {p : Phase} {stack : List Frame} {fraction exponent rest : Bytes}
    (h : IsFraction fraction) (hexponent : IsExponent exponent) (hp : p ∈ [Phase.zero, .whole])
    (hrest : Bounds rest) :
    extent p stack (fraction ++ (exponent ++ rest)) = extent .after stack rest := by
  obtain rfl | ⟨ds, hds, rfl⟩ := h
  · exact hexponent.extent (by simp at hp ⊢; tauto) hrest
  · have hpoint : step p stack 46 = some (.point, stack) := by
      simp only [List.mem_cons, List.not_mem_nil, or_false] at hp
      obtain rfl | rfl := hp <;> rfl
    rw [List.cons_append, extent_cons hpoint,
      hds.extent (q := .fraction) (fun d hd => by simp [step, numberStep, hd]) (by simp)]
    exact hexponent.extent (by simp) hrest

/-- The digits of a whole part, at the start of a value and behind a sign. -/
theorem IsWhole.extent {p : Phase} {stack : List Frame} {whole t : Bytes} {o : Option Bytes}
    (h : IsWhole whole) (hp : p ∈ [Phase.value, .minus])
    (ht : ∀ q ∈ [Phase.zero, .whole], extent q stack t = o) : extent p stack (whole ++ t) = o := by
  simp only [List.mem_cons, List.not_mem_nil, or_false] at hp
  obtain rfl | ⟨⟨hne, hds⟩, hzero⟩ := h
  · have hstep : step p stack 48 = some (.zero, stack) := by
      obtain rfl | rfl := hp <;> rfl
    rw [List.singleton_append, extent_cons hstep, ht .zero (by simp)]
  · obtain ⟨d, ds, rfl⟩ := List.exists_cons_of_ne_nil hne
    have hd := hds d (by simp)
    have hne : d ≠ 48 := by simpa using hzero
    have hstep : step p stack d = some (.whole, stack) := by
      obtain rfl | rfl := hp <;> simp only [step, startValue, numberStep] <;>
        grind [isSpace, Bytes.isDigit]
    rw [List.cons_append, extent_cons hstep, extent_digits (by simp) fun c hc => hds c (by simp [hc])]
    exact ht .whole (by simp)

theorem IsNumber.extent {stack : List Frame} {t rest : Bytes} (h : IsNumber t) (hrest : Bounds rest) :
    extent .value stack (t ++ rest) = extent .after stack rest := by
  obtain ⟨hsign, hwhole, hfraction, hexponent⟩ := h
  rename_i sign whole fraction exponent
  have hbehind : ∀ q ∈ [Phase.zero, .whole],
      Json.extent q stack (fraction ++ (exponent ++ rest)) = Json.extent .after stack rest :=
    fun q hq => hfraction.extent hexponent hq hrest
  simp only [List.append_assoc]
  simp only [List.mem_cons, List.not_mem_nil, or_false] at hsign
  obtain rfl | rfl := hsign
  · exact hwhole.extent (by simp) hbehind
  · rw [List.singleton_append, extent_cons (q := .minus) (s := stack) rfl]
    exact hwhole.extent (by simp) hbehind

/-! ### Values -/

theorem extent_word {stack : List Frame} {t : Bytes} (h : t ∈ words) (rest : Bytes) :
    extent .value stack (t ++ rest) = extent .after stack rest := by
  simp only [words, List.mem_cons, List.not_mem_nil, or_false] at h
  obtain rfl | rfl | rfl := h <;> simp [extent, step, startValue, isSpace, Bytes.isDigit]

/-- A value starts with a byte that is neither white space nor a closing bracket. -/
theorem IsJson.head {t : Bytes} (h : IsJson .value t) :
    ∃ c tail, t = c :: tail ∧ isSpace c = false ∧ c ≠ 93 := by
  have hdigit : ∀ d, Bytes.isDigit d = true → isSpace d = false ∧ d ≠ 93 := by
    intro d hd
    unfold Bytes.isDigit at hd
    unfold isSpace
    grind
  cases h with
  | word h =>
    simp only [words, List.mem_cons, List.not_mem_nil, or_false] at h
    obtain rfl | rfl | rfl := h <;> exact ⟨_, _, rfl, by decide, by decide⟩
  | number h =>
    obtain ⟨hsign, hwhole, -, -⟩ := h
    simp only [List.mem_cons, List.not_mem_nil, or_false] at hsign
    obtain rfl | rfl := hsign
    · obtain rfl | ⟨⟨hne, hds⟩, -⟩ := hwhole
      · exact ⟨48, _, rfl, by decide, by decide⟩
      · obtain ⟨d, ds, rfl⟩ := List.exists_cons_of_ne_nil hne
        exact ⟨d, _, rfl, hdigit d (hds d (by simp))⟩
    · exact ⟨45, _, rfl, by decide, by decide⟩
  | string h => exact ⟨34, _, rfl, by decide, by decide⟩
  | @empty k t h => exact ⟨k.opening, _, rfl, by cases k <;> decide, by cases k <;> decide⟩
  | @bracket k t h => exact ⟨k.opening, _, rfl, by cases k <;> decide, by cases k <;> decide⟩

/-- Behind white space, an element starts with a byte that does not close its bracket. -/
theorem IsJson.element_head {k : Frame} {t : Bytes} (h : IsJson (.element k) t) :
    ∃ before c tail, t = before ++ c :: tail ∧ IsSpaces before ∧ isSpace c = false ∧ c ≠ k.closing := by
  cases h with
  | item hbefore h hafter =>
    obtain ⟨c, tail, rfl, hc, hne⟩ := h.head
    exact ⟨_, c, _, rfl, hbefore, hc, hne⟩
  | member hbefore => exact ⟨_, 34, _, rfl, hbefore, by decide, by decide⟩

theorem IsJson.elements_head {k : Frame} {t : Bytes} (h : IsJson (.elements k) t) :
    ∃ before c tail, t = before ++ c :: tail ∧ IsSpaces before ∧ isSpace c = false ∧ c ≠ k.closing := by
  cases h with
  | last h => exact h.element_head
  | more h hs =>
    obtain ⟨before, c, tail, rfl, hrest⟩ := h.element_head
    exact ⟨before, c, _, by rw [List.append_assoc, List.cons_append], hrest⟩

/-- Behind an opening bracket the machine goes on as behind a comma, when an element follows. -/
theorem IsJson.extent_first {k : Frame} {stack : List Frame} {t : Bytes} (h : IsJson (.elements k) t)
    (rest : Bytes) : extent k.first stack (t ++ rest) = extent k.next stack (t ++ rest) := by
  obtain ⟨before, c, tail, rfl, hbefore, hc, hne⟩ := h.elements_head
  have hstep : step k.first stack c = step k.next stack c := by
    cases k with
    | array => simp_all [step, Frame.first, Frame.next, Frame.closing]
    | object => simp_all [step, Frame.first, Frame.next, Frame.closing]
  rw [List.append_assoc, extent_spaces hbefore (by cases k <;> simp [Frame.first]),
    extent_spaces hbefore (by cases k <;> simp [Frame.next]), List.cons_append, extent, extent, hstep]
  cases k <;> rfl

/-- What the machine does with a part of a text. -/
def Passes : Part → Bytes → Prop
  | .value, t => ∀ stack rest, Bounds rest →
      extent .value stack (t ++ rest) = extent .after stack rest
  | .element k, t => ∀ stack rest, Bounds rest →
      extent k.next (k :: stack) (t ++ rest) = extent .after (k :: stack) rest
  | .elements k, t => ∀ stack rest,
      extent k.next (k :: stack) (t ++ k.closing :: rest) = extent .after stack rest

theorem extent_opening (k : Frame) (stack : List Frame) (rest : Bytes) :
    extent .value stack (k.opening :: rest) = extent k.first (k :: stack) rest := by
  cases k <;> exact extent_cons rfl rest

theorem extent_closing (k : Frame) (stack : List Frame) (rest : Bytes) :
    extent .after (k :: stack) (k.closing :: rest) = extent .after stack rest := by
  cases k <;> exact extent_cons rfl rest

/-- A closing bracket may follow the opening one. -/
theorem extent_first_closing (k : Frame) (stack : List Frame) (rest : Bytes) :
    extent k.first (k :: stack) (k.closing :: rest) = extent .after stack rest := by
  cases k <;> exact extent_cons rfl rest

theorem extent_comma (k : Frame) (stack : List Frame) (rest : Bytes) :
    extent .after (k :: stack) (44 :: rest) = extent k.next (k :: stack) rest := by
  cases k <;> exact extent_cons rfl rest

/-- The machine passes over every text of the grammar. -/
theorem IsJson.passes {part : Part} {t : Bytes} (h : IsJson part t) : Passes part t := by
  induction h with
  | word h => exact fun stack rest _ => extent_word h rest
  | number h => exact fun stack rest hrest => h.extent hrest
  | string h =>
    intro stack rest _
    rw [List.cons_append, extent_cons (q := .text false) (s := stack) rfl, List.append_assoc,
      List.singleton_append, h.extent]
    rfl
  | @empty k t h =>
    intro stack rest _
    rw [List.cons_append, extent_opening, List.append_assoc, List.singleton_append,
      extent_spaces h (by cases k <;> simp [Frame.first]), extent_first_closing]
  | @bracket k t h ih =>
    intro stack rest _
    rw [List.cons_append, extent_opening, List.append_assoc, List.singleton_append, h.extent_first,
      ih stack rest]
  | @item before t after hbefore h hafter ih =>
    intro stack rest hrest
    rw [List.append_assoc, List.append_assoc, Frame.next, extent_spaces hbefore (by simp),
      ih _ _ (hafter.bounds hrest), extent_after_spaces hafter]
  | @member before body between ahead t after hbefore hbody hbetween hahead h hafter ih =>
    intro stack rest hrest
    simp only [List.append_assoc, List.cons_append]
    -- the key up to its closing quote, the colon, and the value with white space around it
    rw [Frame.next, extent_spaces hbefore (by simp),
      extent_cons (q := .text true) (s := .object :: stack) rfl, hbody.extent, Phase.afterText,
      if_pos rfl, extent_spaces hbetween (by simp),
      extent_cons (q := .value) (s := .object :: stack) rfl, extent_spaces hahead (by simp),
      ih _ _ (hafter.bounds hrest), extent_after_spaces hafter]
  | last h ih =>
    rename_i k t
    intro stack rest
    rw [ih stack _ (bounds_closing k rest), extent_closing]
  | more h hs ih ihs =>
    rename_i k t ts
    intro stack rest
    rw [List.append_assoc, ih stack _ (by simp [Bounds]), List.cons_append, extent_comma, ihs]

/-- A value is passed over, and so is the white space in front of it. -/
theorem IsJson.ignored {before t : Bytes} (hbefore : IsSpaces before) (h : IsJson .value t) (n : Nat)
    {rest : Bytes} (hrest : Bounds rest) : ignored n (before ++ (t ++ rest)) = .ok ((), rest) := by
  have hskip : skipValue (before ++ (t ++ rest)) = some rest := by
    rw [skipValue, extent_spaces hbefore (by simp), h.passes [] rest hrest, extent_after_nil]
  simp [Json.ignored, hskip]

end AgentRelay.Json
