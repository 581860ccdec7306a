import AgentRelay.Proofs.Decimal
import AgentRelay.Proofs.Job.OneLine
import AgentRelay.Proofs.Text.Trim
import Mathlib.Data.List.TakeWhile

/-!
# The payload of a body

The payload of a body is the body itself without the white space around its value, and with a space in
the place of every line break. A value ends in a byte that belongs to it, so nothing of it is lost when
white space is taken off its end.

* `Json.valueText?_eq` says what a cut value is.
* `Payload.json_of_ofBody` is the payload of a body, byte by byte.
-/

namespace AgentRelay

open Json

namespace Bytes

theorem utf8_eq_flatMap (s : String) : utf8 s = s.toList.flatMap String.utf8EncodeChar := by
  obtain ⟨cs, rfl⟩ : ∃ cs, s = String.ofList cs := ⟨s.toList, by simp⟩
  simp [utf8, List.utf8Encode]

/-- A character beyond ASCII has bytes beyond ASCII alone. -/
theorem le_of_mem_utf8EncodeChar {c : Char} (h : 128 ≤ c.toNat) {b : UInt8}
    (hb : b ∈ String.utf8EncodeChar c) : 128 ≤ b := by
  have hval : c.val.toNat = c.toNat := rfl
  have hofNat : ∀ n, 128 ≤ n → n < 256 → 128 ≤ UInt8.ofNat n := by
    intro n hlow hhigh
    rw [UInt8.le_iff_toNat_le, UInt8.toNat_ofNat', Nat.mod_eq_of_lt hhigh]
    exact hlow
  simp only [String.utf8EncodeChar, hval] at hb
  split_ifs at hb
  · omega
  · simp only [List.mem_cons, List.not_mem_nil, or_false] at hb
    obtain rfl | rfl := hb <;> exact hofNat _ (by omega) (by omega)
  · simp only [List.mem_cons, List.not_mem_nil, or_false] at hb
    obtain rfl | rfl | rfl := hb <;> exact hofNat _ (by omega) (by omega)
  · simp only [List.mem_cons, List.not_mem_nil, or_false] at hb
    obtain rfl | rfl | rfl | rfl := hb <;> exact hofNat _ (by omega) (by omega)

/-- Characters may be changed byte by byte when only ASCII characters change. -/
theorem utf8_map {f : Char → Char} {g : UInt8 → UInt8}
    (hlow : ∀ c, c.toNat < 128 → (f c).toNat < 128 ∧ ascii (f c) = g (ascii c))
    (hchar : ∀ c, 128 ≤ c.toNat → f c = c) (hbyte : ∀ b, 128 ≤ b → g b = b) (s : String) :
    utf8 (String.ofList (s.toList.map f)) = (utf8 s).map g := by
  rw [utf8_eq_flatMap, utf8_eq_flatMap, String.toList_ofList, List.flatMap_map, List.map_flatMap]
  congr 1
  funext c
  rcases Nat.lt_or_ge c.toNat 128 with hc | hc
  · rw [utf8EncodeChar_of_lt hc, utf8EncodeChar_of_lt (hlow c hc).1, (hlow c hc).2]
    rfl
  · rw [hchar c hc]
    conv_lhs => rw [← List.map_id (String.utf8EncodeChar c)]
    exact List.map_congr_left fun b hb => (hbyte b (le_of_mem_utf8EncodeChar hc hb)).symm

end Bytes

namespace Json

/-! ### The end of a value -/

/-- The machine never waits for white space. -/
def Phase.IsProper (p : Phase) : Prop := ∀ rest, p = .word rest → ∀ b ∈ rest, isSpace b = false

theorem isProper_of_ne_word {p : Phase} (h : ∀ rest, p ≠ .word rest) : p.IsProper :=
  fun rest hrest => absurd hrest (h rest)

theorem isProper_of_startValue {stack s : List Frame} {b : UInt8} {q : Phase}
    (h : startValue stack b = some (q, s)) : q.IsProper := by
  intro rest hrest
  unfold startValue at h
  split_ifs at h <;> simp only [Option.some.injEq, Prod.mk.injEq] at h <;>
    obtain ⟨rfl, -⟩ := h <;> cases hrest <;> simp [isSpace]

theorem afterValue_eq_some {stack s : List Frame} {b : UInt8} {q : Phase}
    (h : afterValue stack b = some (q, s)) :
    (∀ rest, q ≠ .word rest) ∧ (isSpace b = true → s ≠ []) := by
  unfold afterValue at h
  grind

theorem numberStep_eq_some {p q : Phase} {b : UInt8} (h : numberStep p b = some q) :
    (∀ rest, q ≠ .word rest) ∧ isSpace b = false := by
  unfold numberStep at h
  grind [isSpace, Bytes.isDigit]

theorem isProper_of_afterValue {stack s : List Frame} {b : UInt8} {q : Phase}
    (h : afterValue stack b = some (q, s)) :
    q.IsProper ∧ (isSpace b = true → q.ends = true → s ≠ []) := by
  obtain ⟨hword, hspace⟩ := afterValue_eq_some h
  exact ⟨isProper_of_ne_word hword, fun hb _ => hspace hb⟩

/-- A byte of a number goes on with the number, or it stands behind it. -/
theorem isProper_of_numberStep {p q : Phase} {stack s : List Frame} {b : UInt8}
    (h : (match numberStep p b with
      | some p => some (p, stack)
      | none => if p.ends then afterValue stack b else none) = some (q, s)) :
    q.IsProper ∧ (isSpace b = true → q.ends = true → s ≠ []) := by
  split at h
  · rename_i r hr
    obtain ⟨hword, hspace⟩ := numberStep_eq_some hr
    simp only [Option.some.injEq, Prod.mk.injEq] at h
    obtain ⟨rfl, -⟩ := h
    exact ⟨isProper_of_ne_word hword, fun hb => by simp [hspace] at hb⟩
  · split at h
    · exact isProper_of_afterValue h
    · cases h

/-- One byte takes the machine from a proper phase to a proper phase. A byte of white space belongs to
a value only inside of brackets and strings, where the value cannot end. -/
theorem step_isProper {p q : Phase} {stack s : List Frame} {b : UInt8} (hp : p.IsProper)
    (h : step p stack b = some (q, s)) :
    q.IsProper ∧ (isSpace b = true → q.ends = true → s ≠ []) := by
  have hstart : isSpace b = false → startValue stack b = some (q, s) →
      q.IsProper ∧ (isSpace b = true → q.ends = true → s ≠ []) := fun hb hq =>
    ⟨isProper_of_startValue hq, fun hs => by simp [hb] at hs⟩
  cases p with
  | after => exact isProper_of_afterValue h
  | word letters =>
    rcases letters with _ | ⟨x, _ | ⟨y, rest⟩⟩
    · cases h
    -- the last letter, then one with others behind it: both are no white space
    · have hx : isSpace x = false := hp [x] rfl x (by simp)
      simp only [step] at h
      split_ifs at h with hb
      have hq : q = .after := by simp_all
      exact ⟨isProper_of_ne_word (by simp [hq]), fun hs => by simp_all⟩
    · simp only [step] at h
      split_ifs at h
      have hq : q = .word (y :: rest) := by simp_all
      refine ⟨fun letters hl c hc => hp (x :: y :: rest) rfl c ?_, by simp [hq, Phase.ends]⟩
      simp_all
  | minus => exact isProper_of_numberStep h
  | zero => exact isProper_of_numberStep h
  | whole => exact isProper_of_numberStep h
  | point => exact isProper_of_numberStep h
  | fraction => exact isProper_of_numberStep h
  | mark => exact isProper_of_numberStep h
  | sign => exact isProper_of_numberStep h
  | exponent => exact isProper_of_numberStep h
  | value =>
    simp only [step] at h
    split_ifs at h with hb
    · grind [Phase.ends, isProper_of_ne_word]
    · exact hstart (by simpa using hb) h
  | item =>
    simp only [step] at h
    split_ifs at h with hb hclose
    · grind [Phase.ends, isProper_of_ne_word]
    · grind [isSpace, isProper_of_ne_word]
    · exact hstart (by simpa using hb) h
  | member =>
    simp only [step] at h
    grind [Phase.ends, isSpace, isProper_of_ne_word]
  | key =>
    simp only [step] at h
    grind [Phase.ends, isSpace, isProper_of_ne_word]
  | colon =>
    simp only [step] at h
    grind [Phase.ends, isSpace, isProper_of_ne_word]
  | text isKey =>
    simp only [step] at h
    cases isKey <;> grind [Phase.ends, Phase.afterText, isSpace, isProper_of_ne_word]
  | escape isKey =>
    simp only [step] at h
    grind [Phase.ends, isSpace, isProper_of_ne_word]
  | hex isKey left =>
    simp only [step] at h
    cases left <;> grind [Phase.ends, isSpace, isProper_of_ne_word]

/-- A value ends in a byte that is no white space. -/
theorem getLast?_of_extent {p : Phase} {stack : List Frame} {t : Bytes} (hp : p.IsProper)
    (h : extent p stack t = some []) : ∀ b ∈ t.getLast?, isSpace b = false := by
  induction t generalizing p stack with
  | nil => simp
  | cons c t ih =>
    unfold extent at h
    split at h
    · rename_i q s hs
      obtain ⟨hq, hspace⟩ := step_isProper hp hs
      cases t with
      | nil =>
        -- the value ends behind this byte, outside of all brackets
        have hends : q.ends = true ∧ s = [] := by simpa [extent] using h
        simpa [hends.1, hends.2] using hspace
      | cons d t => simpa using ih hq h
    · split at h <;> simp at h

/-- Without JSON white space at both ends. -/
def trimSpace (b : Bytes) : Bytes := Bytes.dropEndWhile isSpace (skipSpace b)

/-- A line break becomes a space. -/
def unbroken (b : UInt8) : UInt8 := if b == 10 || b == 13 then 32 else b

/-- A cut value is what is left without the white space at both ends, when nothing else follows it. -/
theorem valueText?_eq {b t rest : Bytes} (h : valueText? b = some (t, rest))
    (hrest : skipSpace rest = []) : trimSpace b = t := by
  obtain ⟨r, hr, heq⟩ := Option.map_eq_some_iff.1 h
  obtain ⟨ht, rfl⟩ := Prod.mk.inj heq
  obtain ⟨t', ht', hvalue⟩ := extent_take hr
  obtain rfl : t' = t := by simpa [ht'] using ht
  have hproper : Phase.value.IsProper := isProper_of_ne_word (by simp)
  have hspace : ∀ x ∈ r, isSpace x = true := List.dropWhile_eq_nil_iff.1 hrest
  -- white space follows the value, and the value does not end in any
  rw [trimSpace, ht', Bytes.dropEndWhile_append (getLast?_of_extent hproper hvalue) hspace]

end Json

namespace Payload

/-- A text on one line, byte by byte. -/
theorem utf8_oneLine (s : String) : Bytes.utf8 (oneLine s) = (Bytes.utf8 s).map unbroken := by
  refine Bytes.utf8_map ?_ ?_ ?_ s
  -- the ASCII characters one by one
  · have hlow : ∀ n < 128, ∀ c, c = Char.ofNat n →
        (if c == '\n' || c == '\r' then ' ' else c).toNat < 128 ∧
        Bytes.ascii (if c == '\n' || c == '\r' then ' ' else c) = unbroken (Bytes.ascii c) := by
      simp only [forall_eq]
      decide
    exact fun c hc => hlow c.toNat hc c (Char.ofNat_toNat c).symm
  -- neither a character beyond ASCII nor a byte of one is a line break
  · intro c hc
    have hfeed : c ≠ '\n' := by
      rintro rfl
      exact absurd hc (by decide)
    have hreturn : c ≠ '\r' := by
      rintro rfl
      exact absurd hc (by decide)
    simp [hfeed, hreturn]
  · intro b hb
    have hfeed : b ≠ 10 := by
      rintro rfl
      exact absurd hb (by decide)
    have hreturn : b ≠ 13 := by
      rintro rfl
      exact absurd hb (by decide)
    simp [unbroken, hfeed, hreturn]

/-- A text that is read as a payload is the payload with white space around it. -/
theorem json_of_readAll {body : Bytes} {p : Payload} (h : readAll reader body = .ok p) :
    p.json = trimSpace body := by
  unfold readAll at h
  split at h
  · cases h
  · rename_i q rest hq
    split at h
    · rename_i hrest
      cases h
      unfold reader at hq
      split at hq
      · cases hq
      · rename_i t r ht
        split at hq
        · cases hq
        · rename_i s hs
          cases hq
          rw [valueText?_eq ht (List.isEmpty_iff.1 hrest)]
          exact (Bytes.eq_utf8_of_ofUtf8? hs).symm
    · cases h

theorem oneLine_eq_self {s : String} (h : ¬ (s.toList.any fun c => c == '\n' || c == '\r') = true) :
    oneLine s = s := by
  have hkeep : ∀ c ∈ s.toList, (if c == '\n' || c == '\r' then ' ' else c) = id c := by
    intro c hc
    simp only [List.any_eq_true, not_exists] at h
    exact if_neg fun hbreak => h c ⟨hc, hbreak⟩
  rw [oneLine, List.map_congr_left hkeep, List.map_id, String.ofList_toList]

theorem text_of_ofText? {s : String} {p : Payload} (h : ofText? s = some p) : p.text = s := by
  unfold ofText? at h
  split at h
  · cases h
    rfl
  · cases h

/-- The payload of a body is the body without white space around it, its line breaks as spaces. -/
theorem json_of_ofBody {body : Bytes} {p : Payload} (h : ofBody body = .ok p) :
    p.json = (trimSpace body).map unbroken := by
  unfold ofBody at h
  split at h
  · cases h
  · rename_i q hq
    -- a text without line breaks is taken as it is
    have htext : p.text = oneLine q.text := by
      split at h
      · split at h
        · rename_i r hr
          cases h
          exact text_of_ofText? hr
        · cases h
      · rename_i hplain
        cases h
        exact (oneLine_eq_self hplain).symm
    rw [json, htext, utf8_oneLine, ← json_of_readAll hq]
    rfl

/-- So it is on one line. -/
theorem isOneLine_of_ofBody {body : Bytes} {p : Payload} (h : ofBody body = .ok p) :
    IsOneLine p.json := by
  rw [json_of_ofBody h]
  intro hmem
  obtain ⟨b, -, hb⟩ := List.mem_map.1 hmem
  unfold unbroken at hb
  split_ifs at hb with hbreak
  · cases hb
  · simp [hb] at hbreak

end Payload
end AgentRelay
