import AgentRelay.Bytes
import AgentRelay.Time.Instant
import Mathlib.Data.List.Basic
import Mathlib.Tactic.Common

/-!
# Decimal digits

A number is written with the digits of `Nat.toDigits 10`. Both readers of digits, the one over bytes
and the one over characters, read them back.

* `Bytes.utf8_ofList` is the bytes of an ASCII text, one for each character.
* `Instant.natOfChars_toDigits` and `Bytes.natOfDigits_toDigits` read the digits of a number.
-/

namespace AgentRelay

/-- An ASCII character is one byte. -/
theorem utf8EncodeChar_of_lt {c : Char} (h : c.toNat < 128) :
    String.utf8EncodeChar c = [Bytes.ascii c] := by
  have hle : c.val ≤ 127 := by
    rw [UInt32.le_iff_toNat_le]
    exact Nat.le_of_lt_succ h
  rw [String.utf8EncodeChar_eq_singleton (Char.utf8Size_eq_one_iff.2 hle)]
  rfl

/-- A decimal digit is an ASCII character. -/
theorem toNat_lt_of_isDigit {c : Char} (h : c.isDigit = true) : c.toNat < 128 := by
  have := Char.isDigit_iff_toNat.1 h
  have hnine : '9'.toNat = 57 := rfl
  omega

theorem isDigit_of_mem_toDigits {n : Nat} {c : Char} (h : c ∈ Nat.toDigits 10 n) :
    c.isDigit = true :=
  Nat.isDigit_of_mem_toDigits (by decide) (by decide) h

/-- No number but zero starts with the digit zero. -/
theorem head?_toDigits_ne {n : Nat} (h : 0 < n) : (Nat.toDigits 10 n).head? ≠ some '0' := by
  induction n using Nat.strongRecOn with
  | _ n ih =>
    rw [Nat.toDigits_eq_if (by decide)]
    split
    · rename_i hlt
      have hdigit : ∀ k < 10, 0 < k → Nat.digitChar k ≠ '0' := by decide
      simpa using hdigit n hlt h
    · rename_i hge
      have hhead := ih (n / 10) (by omega) (by omega)
      cases hds : Nat.toDigits 10 (n / 10) with
      | nil => exact absurd hds Nat.toDigits_ne_nil
      | cons d ds => simpa [hds] using hhead

namespace Bytes

/-- The bytes of an ASCII text, one for each character. -/
theorem utf8_ofList {cs : List Char} (h : ∀ c ∈ cs, c.toNat < 128) :
    utf8 (String.ofList cs) = cs.map ascii := by
  have hflat : cs.flatMap String.utf8EncodeChar = cs.map ascii := by
    induction cs with
    | nil => rfl
    | cons c cs ih =>
      rw [List.flatMap_cons, utf8EncodeChar_of_lt (h c (by simp)),
        ih fun d hd => h d (List.mem_cons_of_mem _ hd)]
      rfl
  simp [utf8, List.utf8Encode, hflat]

/-- The byte of a decimal digit. -/
theorem toNat_ascii {c : Char} (h : c.isDigit = true) : (ascii c).toNat = c.toNat := by
  have := toNat_lt_of_isDigit h
  simp only [ascii, Nat.toUInt8_eq, UInt8.toNat_ofNat']
  omega

theorem isDigit_ascii {c : Char} (h : c.isDigit = true) : isDigit (ascii c) = true := by
  have hrange := Char.isDigit_iff_toNat.1 h
  have hzero : '0'.toNat = 48 := rfl
  have hnine : '9'.toNat = 57 := rfl
  simp only [isDigit, Bool.and_eq_true, decide_eq_true_eq, UInt8.le_iff_toNat_le, toNat_ascii h]
  exact ⟨by simpa using by omega, by simpa using by omega⟩

end Bytes

namespace Instant

/-- The digits of a number are read as that number. -/
theorem natOfChars_toDigits (n : Nat) : natOfChars (Nat.toDigits 10 n) = n := by
  have h := Nat.ofDigitChars_ten_toDigits (n := n)
  rw [Nat.ofDigitChars_eq_foldl] at h
  simpa [natOfChars, Nat.mul_comm] using h

/-- Leading zeros do not count. -/
theorem natOfChars_replicate_append (k : Nat) (ds : List Char) :
    natOfChars (List.replicate k '0' ++ ds) = natOfChars ds := by
  induction k with
  | zero => rfl
  | succ k ih => simpa [natOfChars, List.replicate_succ] using ih

end Instant

namespace Bytes

/-- Reading digits as bytes and as characters is the same. -/
theorem natOfDigits_map_ascii {cs : List Char} (h : ∀ c ∈ cs, c.isDigit = true) :
    natOfDigits (cs.map ascii) = Instant.natOfChars cs := by
  unfold natOfDigits Instant.natOfChars
  rw [List.foldl_map]
  refine List.foldl_ext _ _ _ fun n c hc => ?_
  rw [toNat_ascii (h c hc)]

theorem natOfDigits_toDigits (n : Nat) : natOfDigits ((Nat.toDigits 10 n).map ascii) = n := by
  rw [natOfDigits_map_ascii fun _ => isDigit_of_mem_toDigits, Instant.natOfChars_toDigits]

end Bytes
end AgentRelay
