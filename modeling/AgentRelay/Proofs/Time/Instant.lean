import AgentRelay.Proofs.Decimal
import Mathlib.Algebra.Ring.Nat

/-!
# Written instants are read back

The written form of an instant has a fixed width in all parts but the year, and every part ends in
front of a mark or at its full width. So each part is read as the number it was written from.

* `number?_padDigits` reads the parts of fixed width, `year?_yearText` the year and
  `fraction?_fractionText` the fraction of a second.
* `read?_text` reads the whole instant.
-/

namespace AgentRelay

namespace Span

theorem isDigit_of_mem_padDigits {w n : Nat} {c : Char} (h : c ∈ padDigits w n) :
    c.isDigit = true := by
  rcases List.mem_append.1 h with h | h
  · rw [List.eq_of_mem_replicate h]
    rfl
  · exact isDigit_of_mem_toDigits h

/-- A number that fits is written with exactly the digits asked for. -/
theorem length_padDigits {w n : Nat} (hw : 0 < w) (h : n < 10 ^ w) : (padDigits w n).length = w := by
  have := (Nat.length_toDigits_le_iff (b := 10) (by decide) hw).2 h
  simp only [padDigits, List.length_append, List.length_replicate]
  omega

theorem padDigits_ne_nil (w n : Nat) : padDigits w n ≠ [] := by simp [padDigits]

theorem natOfChars_padDigits (w n : Nat) : Instant.natOfChars (padDigits w n) = n := by
  rw [padDigits, Instant.natOfChars_replicate_append, Instant.natOfChars_toDigits]

/-- Written numbers start with a digit. -/
theorem padDigits_eq_cons (w n : Nat) :
    ∃ c ds, padDigits w n = c :: ds ∧ c.isDigit = true := by
  obtain ⟨c, ds, h⟩ := List.exists_cons_of_ne_nil (padDigits_ne_nil w n)
  exact ⟨c, ds, h, isDigit_of_mem_padDigits (w := w) (n := n) (by simp [h])⟩

end Span

namespace Instant

open AgentRelay.Span

/-- No digit is white space. -/
theorem isBlank_of_isDigit {c : Char} (h : c.isDigit = true) : Text.isBlank c = false := by
  have hrange := Char.isDigit_iff_toNat.1 h
  have hzero : '0'.toNat = 48 := rfl
  have hnine : '9'.toNat = 57 := rfl
  simp only [Text.isBlank, Bool.or_eq_false_iff, Bool.and_eq_false_iff, decide_eq_false_iff_not,
    beq_eq_false_iff_ne]
  omega

theorem trimStart_of_not_isBlank {c : Char} (h : Text.isBlank c = false) (cs : List Char) :
    Text.trimStart (c :: cs) = c :: cs := by
  simp [Text.trimStart, h]

/-! ### Numbers -/

/-- Digits that are as many as may be read, or in front of something that is no digit. -/
theorem digitsUpTo_append {most : Nat} {ds rest : List Char} (h : ∀ c ∈ ds, c.isDigit = true)
    (hlen : ds.length ≤ most)
    (hrest : ds.length = most ∨ ∀ c ∈ rest.head?, c.isDigit = false) :
    digitsUpTo most (ds ++ rest) = (ds, rest) := by
  have htake : ((ds ++ rest).take most).takeWhile Char.isDigit = ds := by
    rw [List.take_append, List.take_of_length_le hlen, List.takeWhile_append_of_pos h]
    rcases hrest with hfull | hrest
    · simp [hfull]
    · cases rest with
      | nil => simp
      | cons c rest =>
        cases hk : most - ds.length with
        | zero => simp
        | succ k => simp [hrest c rfl]
  simp [digitsUpTo, htake]

theorem number?_append {most : Nat} {ds rest : List Char} (hne : ds ≠ [])
    (h : ∀ c ∈ ds, c.isDigit = true) (hlen : ds.length ≤ most)
    (hrest : ds.length = most ∨ ∀ c ∈ rest.head?, c.isDigit = false) :
    number? most (ds ++ rest) = some (natOfChars ds, rest) := by
  rw [number?, digitsUpTo_append h hlen hrest]
  split
  · rename_i heq
    exact absurd (Prod.mk.inj heq).1 hne
  · rename_i heq
    obtain ⟨rfl, rfl⟩ := Prod.mk.inj heq
    rfl

/-- A number written at its full width is read, whatever follows. -/
theorem number?_padDigits {w n : Nat} (hw : 0 < w) (h : n < 10 ^ w) (rest : List Char) :
    number? w (padDigits w n ++ rest) = some (n, rest) := by
  have hlen := length_padDigits hw h
  have hread := number?_append (padDigits_ne_nil w n) (fun _ => isDigit_of_mem_padDigits)
    (Nat.le_of_eq hlen) (Or.inl hlen : _ ∨ ∀ c ∈ rest.head?, c.isDigit = false)
  rwa [natOfChars_padDigits] at hread

theorem field?_padDigits {n : Nat} (h : n < 100) (rest : List Char) :
    field? 2 (padDigits 2 n ++ rest) = some (n, rest) := by
  obtain ⟨c, ds, hds, hc⟩ := padDigits_eq_cons 2 n
  have htrim : Text.trimStart (padDigits 2 n ++ rest) = padDigits 2 n ++ rest := by
    rw [hds]
    exact trimStart_of_not_isBlank (isBlank_of_isDigit hc) (ds ++ rest)
  rw [field?, htrim]
  exact number?_padDigits (by decide) h rest

theorem mark?_cons {c : Char} (h : Text.isBlank c = false) (rest : List Char) :
    mark? c (c :: rest) = some rest := by
  simp [mark?, trimStart_of_not_isBlank h]

/-- A signed year is read up to the hyphen behind it. -/
theorem number?_signed (n : Nat) (rest : List Char) :
    number? (padDigits 4 n ++ '-' :: rest).length (padDigits 4 n ++ '-' :: rest) =
      some (n, '-' :: rest) := by
  have hhyphen : ∀ c ∈ ('-' :: rest).head?, c.isDigit = false := by
    rintro c ⟨⟩
    rfl
  have hread := number?_append (padDigits_ne_nil 4 n) (fun _ => isDigit_of_mem_padDigits)
    (show (padDigits 4 n).length ≤ (padDigits 4 n ++ '-' :: rest).length by simp) (Or.inr hhyphen)
  rwa [natOfChars_padDigits] at hread

/-- The year of a written instant. -/
theorem year?_yearText (y : Int) (rest : List Char) :
    year? (yearText y ++ '-' :: rest) = some (y, '-' :: rest) := by
  rw [yearText]
  split
  · rename_i hy
    have hread := number?_padDigits (w := 4) (n := y.toNat) (by decide) (by omega) ('-' :: rest)
    obtain ⟨c, ds, hds, hc⟩ := padDigits_eq_cons 4 y.toNat
    rw [hds, List.cons_append] at hread ⊢
    rw [year?, trimStart_of_not_isBlank (isBlank_of_isDigit hc)]
    split
    · rename_i heq
      rw [(List.cons.inj heq).1] at hc
      cases hc
    · rename_i heq
      rw [(List.cons.inj heq).1] at hc
      cases hc
    · simp only [hread, Option.map_some, Int.toNat_of_nonneg hy.1]
  · rename_i hy
    have hread := number?_signed y.natAbs rest
    split
    · rw [year?, List.cons_append, trimStart_of_not_isBlank (by decide)]
      simp only [hread, Option.map_some, Option.some.injEq, Prod.mk.injEq, and_true]
      omega
    · rw [year?, List.cons_append, trimStart_of_not_isBlank (by decide)]
      simp only [hread, Option.map_some, Option.some.injEq, Prod.mk.injEq, and_true]
      omega

/-- The fraction of a second in a written instant. -/
theorem fraction?_digits {w n : Nat} (hw : 0 < w) (hw' : w ≤ 9) (h : n < 10 ^ w) :
    fraction? ('.' :: (padDigits w n ++ ['Z'])) = some (n * 10 ^ (9 - w), ['Z']) := by
  have hlen := length_padDigits hw h
  have hz : ∀ c ∈ ['Z'].head?, c.isDigit = false := by
    rintro c ⟨⟩
    rfl
  rw [fraction?, digitsUpTo_append (fun _ => isDigit_of_mem_padDigits) (by omega) (Or.inr hz)]
  split
  · rename_i heq
    exact absurd (Prod.mk.inj heq).1 (padDigits_ne_nil w n)
  · rename_i heq
    obtain ⟨rfl, rfl⟩ := Prod.mk.inj heq
    rw [natOfChars_padDigits, hlen]
    rfl

theorem fraction?_fractionText {nano : Nat} (h : nano < 1000000000) :
    fraction? (fractionText nano ++ ['Z']) = some (nano, ['Z']) := by
  rw [fractionText]
  split_ifs with hzero hmilli hmicro
  · simp [fraction?, (beq_iff_eq.1 hzero)]
  · rw [List.cons_append, fraction?_digits (by decide) (by decide) (by omega)]
    have := beq_iff_eq.1 hmilli
    simp only [Option.some.injEq, Prod.mk.injEq, and_true]
    omega
  · rw [List.cons_append, fraction?_digits (by decide) (by decide) (by omega)]
    have := beq_iff_eq.1 hmicro
    simp only [Option.some.injEq, Prod.mk.injEq, and_true]
    omega
  · rw [List.cons_append, fraction?_digits (by decide) (by decide) (by omega)]
    simp

/-! ### Dates and instants -/

/-- Months of any year have at most 31 days. -/
theorem daysInMonth_le (y : Int) (m : Nat) : daysInMonth y m ≤ 31 := by
  unfold daysInMonth
  split_ifs <;> omega

/-- The date of a written instant. -/
theorem date?_chars (d : Date) (rest : List Char) :
    date? (yearText d.year ++ '-' :: (padDigits 2 d.month ++ '-' :: (padDigits 2 d.day ++ rest))) =
      some (d, rest) := by
  have hmonth : d.month < 100 := by have := d.month_range; omega
  have hday : d.day < 100 := by
    have := d.day_range
    have := daysInMonth_le d.year d.month
    omega
  simp only [date?, year?_yearText, mark?_cons (c := '-') (by decide), field?_padDigits hmonth,
    field?_padDigits hday, Date.of?_self, Option.bind_eq_bind, Option.bind_some, Option.pure_def]

/-- The instant of its own parts. -/
theorem ofLocal?_self (t : Instant) : ofLocal? t.date t.minute t.second t.nano 0 = some t := by
  have hlow : ¬ ((t.minute : Int) - 0 < 0) := by omega
  have hhigh : ¬ (1440 ≤ (t.minute : Int) - 0) := by have := t.minute_lt; omega
  rw [ofLocal?, if_neg hlow, if_neg hhigh]
  simp only [Int.sub_zero, Int.toNat_natCast, of?]
  rw [dif_pos ⟨t.minute_lt, t.second_le, t.nano_lt⟩]

/-- A written instant is read back, whatever its year, its fraction of a second, and in a leap second
too. -/
theorem read?_text (t : Instant) : read? t.text = some t := by
  have hhour : t.minute / 60 < 24 := by have := t.minute_lt; omega
  have hminute : t.minute % 60 < 60 := by omega
  have hsecond : t.second < 100 := by have := t.second_le; omega
  have hchars : t.chars = yearText t.date.year ++ '-' :: (padDigits 2 t.date.month ++
      '-' :: (padDigits 2 t.date.day ++ 'T' :: (padDigits 2 (t.minute / 60) ++
      ':' :: (padDigits 2 (t.minute % 60) ++ ':' :: (padDigits 2 t.second ++
      (fractionText t.nano ++ ['Z'])))))) := by
    simp [chars]
  have hminutes : t.minute / 60 * 60 + t.minute % 60 = t.minute := by omega
  have hoffset : offset? (Text.trimStart ['Z']) = some (0, []) := by decide
  have hend : (Text.trimStart []).isEmpty = true := rfl
  simp only [read?, text, String.toList_ofList, hchars, date?_chars, mark?_cons (c := ':') (by decide),
    field?_padDigits (show t.minute / 60 < 100 by omega),
    field?_padDigits (show t.minute % 60 < 100 by omega), field?_padDigits hsecond,
    fraction?_fractionText t.nano_lt, hoffset, Option.bind_eq_bind, Option.bind_some, hhour, hminute,
    hend, hminutes, ofLocal?_self, decide_true, Bool.and_self, ↓reduceIte, beq_self_eq_true,
    Bool.true_or]

end Instant
end AgentRelay
