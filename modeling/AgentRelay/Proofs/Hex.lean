import AgentRelay.Bytes
import Mathlib.Tactic.Common

/-!
# Hexadecimal digits

A byte has two digits. They are written in lower case and read in either case, so what is read are the texts
that are written digits once their letters are small.

* `Bytes.hexChars` are the digits of bytes. `getElem?_hexChars` finds one, and `length_hexChars` counts them.
* `Bytes.ofHexDigits?_eq_some_iff`: which digits are read as which bytes.
-/

namespace AgentRelay.Bytes

variable {x : UInt8} {n : Nat}

/-- The digits of bytes. -/
def hexChars (b : Bytes) : List Char := (toHex b).toList

theorem hexChars_nil : hexChars [] = [] := rfl

theorem hexChars_cons (x : UInt8) (b : Bytes) :
    hexChars (x :: b) = hexDigit (x.toNat / 16) :: hexDigit (x.toNat % 16) :: hexChars b := by
  simp [hexChars, toHex]

theorem length_hexChars (b : Bytes) : (hexChars b).length = 2 * b.length := by
  induction b with
  | nil => rfl
  | cons x b ih =>
    rw [hexChars_cons, List.length_cons, List.length_cons, ih, List.length_cons]
    omega

/-- Each byte has a digit at an even place and one behind it. -/
theorem getElem?_hexChars (b : Bytes) (n : Nat) : (hexChars b)[n]? =
    b[n / 2]?.map fun x => hexDigit (if n % 2 = 0 then x.toNat / 16 else x.toNat % 16) := by
  induction b generalizing n with
  | nil => rfl
  | cons x b ih =>
    rw [hexChars_cons]
    match n with
    | 0 => rfl
    | 1 => rfl
    | n + 2 =>
      rw [List.getElem?_cons_succ, List.getElem?_cons_succ, ih, show (n + 2) / 2 = n / 2 + 1 by omega,
        List.getElem?_cons_succ, Nat.add_mod_right]

/-- The digits in the order of their values. -/
def alphabet : List Char := "0123456789abcdef".toList

theorem hexDigit_mem_alphabet : ∀ n < 16, hexDigit n ∈ alphabet := by decide

theorem idxOf_hexDigit : ∀ n < 16, alphabet.idxOf (hexDigit n) = n := by decide

theorem toNat_lt_of_mem_alphabet {c : Char} (h : c ∈ alphabet) : c.toNat < 128 := by
  have hall : alphabet.all (fun c => decide (c.toNat < 128)) = true := by decide
  exact of_decide_eq_true (List.all_eq_true.1 hall c h)

theorem mem_alphabet_of_mem_hexChars {b : Bytes} {c : Char} (h : c ∈ hexChars b) : c ∈ alphabet := by
  obtain ⟨n, hn⟩ := List.mem_iff_getElem?.1 h
  rw [getElem?_hexChars] at hn
  obtain ⟨x, -, rfl⟩ := Option.map_eq_some_iff.1 hn
  have hbyte := x.toNat_lt
  split <;> exact hexDigit_mem_alphabet _ (by omega)

/-! ### Reading -/

/-- What holds of the first 256 numbers holds of all bytes. -/
theorem forall_byte {p : UInt8 → Prop} (h : ∀ k < 256, p k.toUInt8) : ∀ x, p x := by
  intro x
  simpa using h x.toNat x.toNat_lt

/-- A digit is read in either case. -/
theorem hexValue?_eq_some_iff : hexValue? x = some n ↔ n < 16 ∧ toLower x = ascii (hexDigit n) := by
  have hall : ∀ x, (∀ n ∈ hexValue? x, n < 16) ∧
      ∀ n < 16, hexValue? x = some n ↔ toLower x = ascii (hexDigit n) := forall_byte (by decide +kernel)
  obtain ⟨hlt, hiff⟩ := hall x
  exact ⟨fun h => ⟨hlt n h, (hiff n (hlt n h)).1 h⟩, fun ⟨hn, h⟩ => (hiff n hn).2 h⟩

/-- Two digits make one byte. -/
theorem toUInt8_eq_iff {high low : Nat} (hhigh : high < 16) (hlow : low < 16) :
    (high * 16 + low).toUInt8 = x ↔ high = x.toNat / 16 ∧ low = x.toNat % 16 := by
  have hbyte := x.toNat_lt
  rw [← UInt8.toNat_inj, Nat.toUInt8_eq, UInt8.toNat_ofNat', Nat.mod_eq_of_lt (by omega)]
  omega

/-- Digits are read as the bytes that have them, in either case. -/
theorem ofHexDigits?_eq_some_iff {ds b : Bytes} :
    ofHexDigits? ds = some b ↔ ds.map toLower = (hexChars b).map ascii := by
  fun_induction ofHexDigits? ds generalizing b with
  | case1 => cases b <;> simp [hexChars_nil, hexChars_cons]
  | case2 => cases b <;> simp [hexChars_nil, hexChars_cons]
  | case3 high low rest ih =>
    cases b with
    | nil => simp [hexChars_nil, Option.bind_eq_some_iff]
    | cons x b =>
      have hbyte := x.toNat_lt
      simp only [Option.bind_eq_bind, Option.bind_eq_some_iff, Option.pure_def, Option.some.injEq,
        List.cons.injEq, hexChars_cons, List.map_cons, ih]
      constructor
      · rintro ⟨h, hhigh, l, hlow, t, hrest, hx, rfl⟩
        obtain ⟨hh, hhigh⟩ := hexValue?_eq_some_iff.1 hhigh
        obtain ⟨hl, hlow⟩ := hexValue?_eq_some_iff.1 hlow
        obtain ⟨rfl, rfl⟩ := (toUInt8_eq_iff hh hl).1 hx
        exact ⟨hhigh, hlow, hrest⟩
      · rintro ⟨hhigh, hlow, hrest⟩
        have hh : x.toNat / 16 < 16 := by omega
        have hl : x.toNat % 16 < 16 := by omega
        exact ⟨_, hexValue?_eq_some_iff.2 ⟨hh, hhigh⟩, _, hexValue?_eq_some_iff.2 ⟨hl, hlow⟩, b, hrest,
          (toUInt8_eq_iff hh hl).2 ⟨rfl, rfl⟩, rfl⟩

end AgentRelay.Bytes
