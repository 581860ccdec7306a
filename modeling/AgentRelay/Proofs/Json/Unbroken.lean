import AgentRelay.Proofs.Json.Respaced

/-!
# Line breaks as spaces

A line break inside of a string literal is no JSON, so in a text that is one value all line breaks
stand between tokens. When they become spaces, the text stays a value, the same tokens stand in it, and no
byte of a string literal changes.

* `literals` marks the bytes of string literals, `getElem?_map_unbroken` says that they do not change.
* `extent_unbroken`: the value still ends where it ended.
* `respaced_unbroken`: the tokens are the same.
-/

namespace AgentRelay.Json

/-! ### String literals -/

/-- Where a byte stands. -/
inductive Place
  | outside
  | inside
  /-- Behind a backslash. -/
  | escaped
  deriving DecidableEq

/-- Where the byte behind it stands. -/
def Place.next : Place → UInt8 → Place
  | .outside, c => if c == 34 then .inside else .outside
  | .inside, c => if c == 34 then .outside else if c == 92 then .escaped else .inside
  | .escaped, _ => .inside

/-- For every byte, whether it belongs to a string literal. The quotes do. -/
def literals : Place → Bytes → List Bool
  | _, [] => []
  | p, c :: t => (p != .outside || c == 34) :: literals (p.next c) t

/-- Where the byte stands that the machine waits for. -/
def Phase.place : Phase → Place
  | .text _ | .hex _ _ => .inside
  | .escape _ => .escaped
  | _ => .outside

theorem place_of_isOuter {p : Phase} (h : p.IsOuter) : p.place = .outside := by
  cases p <;> simp_all [Phase.IsOuter, Phase.place]

/-- Only line breaks change. -/
theorem unbroken_eq_self {P : UInt8 → Prop} {c : UInt8} (h : P c) (hfeed : ¬ P 10) (hreturn : ¬ P 13) :
    unbroken c = c := by
  have hc : c ≠ 10 := by
    rintro rfl
    exact hfeed h
  have hc' : c ≠ 13 := by
    rintro rfl
    exact hreturn h
  simp [unbroken, hc, hc']

theorem unbroken_of_not_isSpace {c : UInt8} (h : isSpace c = false) : unbroken c = c :=
  unbroken_eq_self (P := fun c => isSpace c = false) h (by decide) (by decide)

theorem isSpace_unbroken {c : UInt8} (h : isSpace c = true) : isSpace (unbroken c) = true := by
  unfold unbroken
  split
  · decide
  · exact h

theorem unbroken_of_not_lt {c : UInt8} (h : ¬ c < 32) : unbroken c = c :=
  unbroken_eq_self (P := fun c => ¬ c < 32) h (by decide) (by decide)

theorem unbroken_of_shortEscape {c : UInt8} (h : (shortEscape? c).isSome) : unbroken c = c :=
  unbroken_eq_self (P := fun c => (shortEscape? c).isSome) h (by decide) (by decide)

theorem unbroken_of_hexValue {c : UInt8} (h : (Bytes.hexValue? c).isSome) : unbroken c = c :=
  unbroken_eq_self (P := fun c => (Bytes.hexValue? c).isSome) h (by decide) (by decide)

/-- The machine is between tokens, or inside of a string. -/
def Phase.IsKnown (p : Phase) : Prop := p.IsOuter ∨ p.place ≠ .outside

/-- Inside of a string the machine takes no control characters, and it finds the closing quote. -/
theorem place_of_step_inside {p q : Phase} {stack s : List Frame} {c : UInt8} (hp : p.place ≠ .outside)
    (h : step p stack c = some (q, s)) : q.place = p.place.next c ∧ q.IsKnown ∧ unbroken c = c := by
  cases p with
  | text isKey =>
    simp only [step] at h
    split_ifs at h with hquote hbackslash hcontrol <;> cases h
    · obtain rfl : c = 34 := by simpa using hquote
      cases isKey <;> exact ⟨rfl, .inl trivial, rfl⟩
    · obtain rfl : c = 92 := by simpa using hbackslash
      exact ⟨rfl, .inr (by simp [Phase.place]), rfl⟩
    · refine ⟨?_, .inr (by simp [Phase.place]), unbroken_of_not_lt hcontrol⟩
      simp_all [Phase.place, Place.next]
  | escape isKey =>
    have hplain : unbroken c = c := by
      simp only [step] at h
      unfold unbroken
      grind
    simp only [step] at h
    split_ifs at h <;> cases h <;> exact ⟨rfl, .inr (by simp [Phase.place]), hplain⟩
  | hex isKey left =>
    simp only [step] at h
    split_ifs at h with hdigit
    have hc : c ≠ 34 ∧ c ≠ 92 ∧ unbroken c = c := by
      unfold Bytes.hexValue? at hdigit
      unfold unbroken
      grind
    have hnext : Place.inside.next c = .inside := by simp [Place.next, hc]
    cases left <;> cases h <;> exact ⟨hnext.symm, .inr (by simp [Phase.place]), hc.2.2⟩
  | _ => exact absurd rfl hp

theorem place_of_step {p q : Phase} {stack s : List Frame} {c : UInt8} (hp : p.IsKnown)
    (h : step p stack c = some (q, s)) : q.place = p.place.next c ∧ q.IsKnown := by
  obtain hp | hp := hp
  · have hq := isOuter_of_step hp h
    rw [place_of_isOuter hp]
    split_ifs at hq with hc
    · obtain ⟨isKey, rfl⟩ := hq
      subst hc
      exact ⟨rfl, .inr (by simp [Phase.place])⟩
    · exact ⟨by simp [place_of_isOuter hq, Place.next, hc], .inl hq⟩
  · obtain ⟨hplace, hknown, -⟩ := place_of_step_inside hp h
    exact ⟨hplace, hknown⟩

/-- No byte of a string literal changes. -/
theorem getElem?_map_unbroken {p : Phase} {stack : List Frame} {t : Bytes} (hp : p.IsKnown)
    (h : extent p stack t = some []) {i : Nat} (hi : (literals p.place t)[i]? ≠ some false) :
    (t.map unbroken)[i]? = t[i]? := by
  induction t generalizing p stack i with
  | nil => rfl
  | cons c t ih =>
    unfold extent at h
    split at h
    · rename_i q s hstep
      obtain ⟨hplace, hq⟩ := place_of_step hp hstep
      cases i with
      | zero =>
        have hc : unbroken c = c := by
          obtain hp | hp := hp
          -- outside of strings a quote is no line break
          · by_cases hquote : c = 34
            · rw [hquote]
              rfl
            · simp [literals, place_of_isOuter hp, hquote] at hi
          · exact (place_of_step_inside hp hstep).2.2
        simp [hc]
      | succ i =>
        simp only [literals, List.getElem?_cons_succ, ← hplace] at hi
        simpa using ih hq h hi
    · split at h <;> simp at h

/-! ### The machine -/

theorem step_unbroken {p q : Phase} {stack s : List Frame} {c : UInt8} (hp : p.IsKnown)
    (h : step p stack c = some (q, s)) : step p stack (unbroken c) = some (q, s) := by
  obtain hp | hp := hp
  · cases hc : isSpace c with
    | false => rwa [unbroken_of_not_isSpace hc]
    | true => rw [← h, step_space hp stack hc, step_space hp stack (isSpace_unbroken hc)]
  · rwa [(place_of_step_inside hp h).2.2]

/-- The value still ends where it ended. -/
theorem extent_unbroken {p : Phase} {stack : List Frame} {t : Bytes} (hp : p.IsKnown)
    (h : extent p stack t = some []) : extent p stack (t.map unbroken) = some [] := by
  induction t generalizing p stack with
  | nil => exact h
  | cons c t ih =>
    unfold extent at h
    split at h
    · rename_i q s hstep
      rw [List.map_cons, extent_cons (step_unbroken hp hstep)]
      exact ih (place_of_step hp hstep).2 h
    · split at h <;> simp at h

/-! ### Tokens -/

theorem IsBody.map_unbroken {body : Bytes} (h : IsBody body) : body.map unbroken = body := by
  induction h with
  | nil => rfl
  | plain hb _ ih => simp [unbroken_of_not_lt hb.2.2, ih]
  | short he _ ih => simp [unbroken_of_shortEscape he, ih, show unbroken 92 = 92 from rfl]
  | @code a b c d body hx _ ih =>
    have hplain : ∀ x ∈ [a, b, c, d], unbroken x = x := fun x hx' => unbroken_of_hexValue (hx x hx')
    simp only [List.map_cons, ih, hplain a (by simp), hplain b (by simp), hplain c (by simp),
      hplain d (by simp)]
    rfl

/-- Where no value ends, the machine goes on. -/
theorem exists_step {p : Phase} {stack : List Frame} {b rest : Bytes} (hp : p.ends = false)
    (h : extent p stack b = some rest) :
    ∃ c t q s, b = c :: t ∧ step p stack c = some (q, s) ∧ extent q s t = some rest := by
  cases b with
  | nil => simp [extent, hp] at h
  | cons c t =>
    unfold extent at h
    split at h
    · exact ⟨c, t, _, _, rfl, ‹_›, h⟩
    · simp [hp] at h

/-- A digit of an escape. -/
theorem exists_digit {isKey : Bool} {left : Nat} {stack : List Frame} {b rest : Bytes}
    (h : extent (.hex isKey left) stack b = some rest) :
    ∃ c t, b = c :: t ∧ (Bytes.hexValue? c).isSome ∧
      extent (match left with | 0 => .text isKey | left + 1 => .hex isKey left) stack t = some rest := by
  obtain ⟨c, t, q, s, rfl, hstep, htail⟩ := exists_step rfl h
  simp only [step] at hstep
  split_ifs at hstep with hc
  refine ⟨c, t, rfl, by simpa [Option.isSome_iff_ne_none] using hc, ?_⟩
  cases left <;> cases hstep <;> exact htail

/-- The machine finds the closing quote behind a body. -/
theorem exists_body {isKey : Bool} {stack : List Frame} {b rest : Bytes}
    (h : extent (.text isKey) stack b = some rest) :
    ∃ body t, IsBody body ∧ b = body ++ 34 :: t ∧ extent (.afterText isKey) stack t = some rest := by
  induction hn : b.length using Nat.strong_induction_on generalizing b with
  | _ n ih =>
    obtain ⟨c, t, q, s, rfl, hstep, htail⟩ := exists_step rfl h
    simp only [step] at hstep
    split_ifs at hstep with hquote hbackslash hcontrol <;> cases hstep
    · obtain rfl : c = 34 := by simpa using hquote
      exact ⟨[], t, .nil, rfl, htail⟩
    · obtain rfl : c = 92 := by simpa using hbackslash
      obtain ⟨e, t, q, s, rfl, hstep, htail⟩ := exists_step rfl htail
      simp only [step] at hstep
      split_ifs at hstep with hcode hshort <;> cases hstep
      · obtain rfl : e = 117 := by simpa using hcode
        obtain ⟨x₁, t, rfl, hx₁, htail⟩ := exists_digit htail
        obtain ⟨x₂, t, rfl, hx₂, htail⟩ := exists_digit htail
        obtain ⟨x₃, t, rfl, hx₃, htail⟩ := exists_digit htail
        obtain ⟨x₄, t, rfl, hx₄, htail⟩ := exists_digit htail
        obtain ⟨body, t, hbody, rfl, hend⟩ :=
          ih t.length (by simp only [List.length_cons] at hn; omega) htail rfl
        exact ⟨_, t, .code (by simp [hx₁, hx₂, hx₃, hx₄]) hbody, rfl, hend⟩
      · obtain ⟨body, t, hbody, rfl, hend⟩ :=
          ih t.length (by simp only [List.length_cons] at hn; omega) htail rfl
        have he : (shortEscape? e).isSome := by
          unfold shortEscape?
          grind
        exact ⟨_, t, .short he hbody, rfl, hend⟩
    · obtain ⟨body, t, hbody, rfl, hend⟩ :=
        ih t.length (by simp only [List.length_cons] at hn; omega) htail rfl
      have hplain : IsPlain c := ⟨by simpa using hquote, by simpa using hbackslash, hcontrol⟩
      exact ⟨_, t, .plain hplain hbody, rfl, hend⟩

/-- White space stands in the same places, and the tokens are the same. -/
theorem respaced_unbroken {p : Phase} {stack : List Frame} {t rest : Bytes} (hp : p.IsOuter)
    (h : extent p stack t = some []) (hrest : IsSpaces rest) :
    Respaced (t ++ rest) (t.map unbroken) := by
  induction hn : t.length using Nat.strong_induction_on generalizing p stack t with
  | _ n ih =>
    cases t with
    | nil => exact .ends hrest (by simp [IsSpaces])
    | cons c t =>
      unfold extent at h
      split at h
      · rename_i q s hstep
        have hq := isOuter_of_step hp hstep
        by_cases hquote : c = 34
        · subst hquote
          obtain ⟨isKey, rfl⟩ : ∃ isKey, q = .text isKey := by simpa using hq
          obtain ⟨body, t, hbody, rfl, hend⟩ := exists_body h
          have houter : (Phase.afterText isKey).IsOuter := by cases isKey <;> trivial
          have hlength : t.length < n := by
            simp only [List.length_cons, List.length_append] at hn
            omega
          have htail := ih t.length hlength houter hend rfl
          simpa [hbody.map_unbroken, show unbroken 34 = 34 from rfl] using Respaced.text hbody htail
        · have hlength : t.length < n := by
            rw [← hn, List.length_cons]
            omega
          have htail := ih t.length hlength (by simpa [hquote] using hq) h rfl
          cases hc : isSpace c with
          | true => exact .space hc (isSpace_unbroken hc) htail
          | false => simpa [unbroken_of_not_isSpace hc] using Respaced.token hc hquote htail
      · split at h <;> simp at h

end AgentRelay.Json
