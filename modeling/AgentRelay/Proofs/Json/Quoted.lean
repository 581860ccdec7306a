import AgentRelay.Json.Reader
import AgentRelay.Json.Literal
import Mathlib.Tactic.Common

/-!
# Written strings are read back

The bytes between the quotes of a written string hold no quote of their own, so the closing quote is
the first one that is found; resolving the escapes then gives the bytes that were escaped.

* `body?_escape` finds the closing quote, `unescape_escape` resolves the escapes.
* `stringAs_quote` reads a written string, whatever follows it.
-/

namespace AgentRelay.Json

/-- A byte that stands for itself inside a string. -/
def IsPlain (b : UInt8) : Prop := b ≠ 34 ∧ b ≠ 92 ∧ ¬ b < 32

/-- The escape of a control character that has no letter. -/
def longEscape (b : UInt8) : Bytes :=
  [92, 117, 48, 48, Bytes.ascii (Bytes.hexDigit (b.toNat / 16)),
    Bytes.ascii (Bytes.hexDigit (b.toNat % 16))]

/-- A byte stands for itself, or a letter stands for it, or its number. -/
theorem escapeByte_cases (b : UInt8) :
    (IsPlain b ∧ escapeByte b = [b]) ∨
    (∃ e, e ≠ 117 ∧ 32 ≤ e ∧ shortEscape? e = some b ∧ escapeByte b = [92, e]) ∨
    (b < 32 ∧ escapeByte b = longEscape b) := by
  unfold escapeByte IsPlain longEscape
  split_ifs <;> simp_all [shortEscape?]

theorem hexValue?_hexDigit : ∀ k < 16, Bytes.hexValue? (Bytes.ascii (Bytes.hexDigit k)) = some k := by
  decide

theorem isPlain_hexDigit : ∀ k < 16, IsPlain (Bytes.ascii (Bytes.hexDigit k)) := by
  unfold IsPlain
  decide

theorem toNat_lt_of_lt {b : UInt8} (h : b < 32) : b.toNat < 32 := UInt8.lt_iff_toNat_lt.1 h

/-! ### The closing quote -/

theorem bodyOnto_plain {b : UInt8} (h : IsPlain b) (done rest : Bytes) :
    bodyOnto done (b :: rest) = bodyOnto (b :: done) rest := by
  obtain ⟨hq, hb, hc⟩ := h
  rw [bodyOnto.eq_def]
  simp [hq, hb, hc]

theorem bodyOnto_backslash (e : UInt8) (done rest : Bytes) :
    bodyOnto done (92 :: e :: rest) = bodyOnto (e :: 92 :: done) rest := by
  rw [bodyOnto.eq_def]
  simp

theorem bodyOnto_quote (done rest : Bytes) :
    bodyOnto done (34 :: rest) = some (done.reverse, rest) := by
  rw [bodyOnto.eq_def]
  simp

/-- An escaped byte is passed over as a whole. -/
theorem bodyOnto_escapeByte (b : UInt8) (done rest : Bytes) :
    bodyOnto done (escapeByte b ++ rest) = bodyOnto ((escapeByte b).reverse ++ done) rest := by
  obtain ⟨hp, h⟩ | ⟨e, -, -, -, h⟩ | ⟨hb, h⟩ := escapeByte_cases b
  · simpa [h] using bodyOnto_plain hp done rest
  · simpa [h] using bodyOnto_backslash e done rest
  · have hn := toNat_lt_of_lt hb
    have hzero : IsPlain 48 := by unfold IsPlain; decide
    have hhigh := isPlain_hexDigit (b.toNat / 16) (by omega)
    have hlow := isPlain_hexDigit (b.toNat % 16) (by omega)
    simp only [h, longEscape, List.cons_append, List.nil_append, List.reverse_cons,
      List.reverse_nil]
    rw [bodyOnto_backslash, bodyOnto_plain hzero, bodyOnto_plain hzero, bodyOnto_plain hhigh,
      bodyOnto_plain hlow]

/-- The closing quote of a written string is found. -/
theorem bodyOnto_escape (b done rest : Bytes) :
    bodyOnto done (escape b ++ 34 :: rest) = some (done.reverse ++ escape b, rest) := by
  induction b generalizing done with
  | nil => simpa [escape] using bodyOnto_quote done rest
  | cons c b ih =>
    have hcons : escape (c :: b) = escapeByte c ++ escape b := rfl
    rw [hcons, List.append_assoc, bodyOnto_escapeByte, ih]
    simp

theorem body?_escape (b rest : Bytes) : body? (escape b ++ 34 :: rest) = some (escape b, rest) := by
  simpa [body?] using bodyOnto_escape b [] rest

/-! ### The escapes -/

theorem unescapeOnto_of_ne {b : UInt8} (h : b ≠ 92) (done rest : Bytes) :
    unescapeOnto done (b :: rest) = unescapeOnto (b :: done) rest := by
  rw [unescapeOnto.eq_def]
  split <;> simp_all

theorem unescapeOnto_short {e x : UInt8} (he : e ≠ 117) (hx : shortEscape? e = some x)
    (done rest : Bytes) : unescapeOnto done (92 :: e :: rest) = unescapeOnto (x :: done) rest := by
  rw [unescapeOnto.eq_def]
  split <;> grind

/-- The escape of a control character by its number. -/
theorem unescapeOnto_longEscape {b : UInt8} (h : b < 32) (done rest : Bytes) :
    unescapeOnto done (longEscape b ++ rest) = unescapeOnto (b :: done) rest := by
  have hn := toNat_lt_of_lt h
  have hzero : Bytes.hexValue? 48 = some 0 := by decide
  have hhigh := hexValue?_hexDigit (b.toNat / 16) (by omega)
  have hlow := hexValue?_hexDigit (b.toNat % 16) (by omega)
  have hword : hexWord? 48 48 (Bytes.ascii (Bytes.hexDigit (b.toNat / 16)))
      (Bytes.ascii (Bytes.hexDigit (b.toNat % 16))) = some b.toNat := by
    simp only [hexWord?, hzero, hhigh, hlow, Option.pure_def, Option.bind_eq_bind,
      Option.bind_some, Option.some.injEq]
    omega
  have hpush : ∀ n < 32, pushCode n done = n.toUInt8 :: done := by
    have hcode : ∀ n < 32, String.utf8EncodeChar (Char.ofNat n) = [n.toUInt8] := by decide
    intro n hn
    simp [pushCode, hcode n hn]
  have hlt : b.toNat < 0xD800 := by omega
  rw [longEscape, List.cons_append, List.cons_append, List.cons_append, List.cons_append,
    List.cons_append, List.cons_append, List.nil_append, unescapeOnto.eq_def]
  simp [hword, hlt, hpush b.toNat hn]

/-- An escaped byte is resolved to that byte. -/
theorem unescapeOnto_escapeByte (b : UInt8) (done rest : Bytes) :
    unescapeOnto done (escapeByte b ++ rest) = unescapeOnto (b :: done) rest := by
  obtain ⟨hp, h⟩ | ⟨e, he, -, hx, h⟩ | ⟨hb, h⟩ := escapeByte_cases b
  · simpa [h] using unescapeOnto_of_ne hp.2.1 done rest
  · simpa [h] using unescapeOnto_short he hx done rest
  · rw [h]
    exact unescapeOnto_longEscape hb done rest

theorem unescapeOnto_escape (b done : Bytes) :
    unescapeOnto done (escape b) = some (done.reverse ++ b) := by
  induction b generalizing done with
  | nil => simp [escape, unescapeOnto]
  | cons c b ih =>
    have hcons : escape (c :: b) = escapeByte c ++ escape b := rfl
    rw [hcons, unescapeOnto_escapeByte, ih]
    simp

/-- Escaped bytes are read back. -/
theorem unescape_escape (b : Bytes) : unescape (escape b) = some b := by
  simpa [unescape] using unescapeOnto_escape b []

theorem textOfBody?_escape (s : String) : textOfBody? (escape (Bytes.utf8 s)) = some s := by
  simp [textOfBody?, unescape_escape]

/-! ### Strings -/

theorem stringRest_escape (s : String) (n : Nat) (rest : Bytes) :
    stringRest n (escape (Bytes.utf8 s) ++ 34 :: rest) = .ok (s, rest) := by
  simp [stringRest, body?_escape, textOfBody?_escape]

/-- A written string, with any bytes behind it. -/
theorem quote_append (s : String) (rest : Bytes) :
    quote s ++ rest = 34 :: (escape (Bytes.utf8 s) ++ 34 :: rest) := by
  simp [quote]

theorem skipSpace_of_not_isSpace {c : UInt8} (h : isSpace c = false) (b : Bytes) :
    skipSpace (c :: b) = c :: b := by
  simp [skipSpace, h]

/-- A written string is read back. -/
theorem stringAs_quote (expected s : String) (n : Nat) (rest : Bytes) :
    stringAs expected n (quote s ++ rest) = .ok (s, rest) := by
  rw [quote_append, stringAs, skipSpace_of_not_isSpace (by decide)]
  exact stringRest_escape s n rest

end AgentRelay.Json
