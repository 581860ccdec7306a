import AgentRelay.Proofs.Decimal
import AgentRelay.Proofs.Json.Reads

/-!
# Written integers are read back

An integer is written as an optional minus sign and decimal digits without a leading zero. Such a
literal has no fraction and no exponent, so it denotes the integer again as long as that lies between
`-2^63` and `2^64 - 1`.

* `read?_intText` is the literal, `reads_integer` the rule for integers.
-/

namespace AgentRelay.Json

/-- The decimal digits of a number as bytes. -/
def natText (n : Nat) : Bytes := (Nat.toDigits 10 n).map Bytes.ascii

theorem natText_ne_nil (n : Nat) : natText n ≠ [] := by simp [natText]

theorem isDigit_of_mem_natText {n : Nat} {b : UInt8} (h : b ∈ natText n) : Bytes.isDigit b = true := by
  obtain ⟨c, hc, rfl⟩ := List.mem_map.1 h
  exact Bytes.isDigit_ascii (isDigit_of_mem_toDigits hc)

/-- Only zero is written with a leading zero. -/
theorem natText_eq_zero_cons {n : Nat} {ds : Bytes} (h : natText n = 48 :: ds) : ds = [] := by
  rcases Nat.eq_zero_or_pos n with rfl | hn
  · exact (List.cons.inj (show [48] = 48 :: ds from h)).2.symm
  · obtain ⟨c, cs, hcs⟩ := List.exists_cons_of_ne_nil (Nat.toDigits_ne_nil (n := n) (b := 10))
    have hmem : c ∈ Nat.toDigits 10 n := by simp [hcs]
    have hdigit := isDigit_of_mem_toDigits hmem
    have hbyte : Bytes.ascii c = 48 := by
      simp only [natText, hcs, List.map_cons, List.cons.injEq] at h
      exact h.1
    have hc : c = '0' := by
      have := Bytes.toNat_ascii hdigit
      rw [hbyte] at this
      exact Char.toNat_inj.1 this.symm
    exact absurd (by rw [hcs, hc]; rfl) (head?_toDigits_ne hn)

/-- The digits of a number, with a minus sign in front of them if it is negative. -/
theorem intText_eq (i : Int) :
    intText i = if i < 0 then 45 :: natText i.natAbs else natText i.natAbs := by
  have hdigits : ∀ n : Nat, Bytes.utf8 n.repr = natText n := fun n =>
    Bytes.utf8_ofList fun c hc => toNat_lt_of_isDigit (isDigit_of_mem_toDigits hc)
  rw [intText, Int.toString_eq_repr, Int.repr_eq_if]
  split
  · rename_i h
    rw [if_neg (by omega), hdigits]
    congr 1
    omega
  · rename_i h
    rw [if_pos (by omega), Bytes.utf8_append, hdigits]
    simp only [show (-i).toNat = i.natAbs by omega]
    rfl

namespace Numeral

/-- The digits in front of something that is no digit. -/
theorem digits_append {ds rest : Bytes} (h : ∀ b ∈ ds, Bytes.isDigit b = true)
    (hrest : ∀ b ∈ rest.head?, Bytes.isDigit b = false) : digits (ds ++ rest) = (ds, rest) := by
  have htake : (ds ++ rest).takeWhile Bytes.isDigit = ds := by
    rw [List.takeWhile_append_of_pos h]
    cases rest with
    | nil => simp
    | cons b rest => simp [hrest b rfl]
  simp [digits, htake]

/-- No fraction and no exponent follow. -/
theorem readFraction_closes (n : Numeral) {rest : Bytes} (h : Closes rest) :
    readFraction n rest = some (n, rest) := by
  cases rest with
  | nil => rfl
  | cons b rest => rcases h b rfl with rfl | rfl | rfl <;> rfl

/-- The digits of a number are read as a literal without fraction and exponent. -/
theorem readWhole_natText (negative : Bool) (n : Nat) {rest : Bytes} (h : Closes rest) :
    readWhole negative (natText n ++ rest) = some (⟨negative, natText n, none, none⟩, rest) := by
  have hclose : ∀ b ∈ rest.head?, Bytes.isDigit b = false := fun b hb => by
    rcases h b hb with rfl | rfl | rfl <;> rfl
  rw [readWhole, digits_append (fun _ => isDigit_of_mem_natText) hclose]
  split
  · rename_i heq
    exact absurd (Prod.mk.inj heq).1 (natText_ne_nil n)
  · rename_i heq
    have := natText_eq_zero_cons (Prod.mk.inj heq).1
    contradiction
  · rename_i heq
    obtain ⟨rfl, rfl⟩ := Prod.mk.inj heq
    exact readFraction_closes _ h

/-- A written integer is read as its literal. -/
theorem read?_intText (i : Int) {rest : Bytes} (h : Closes rest) :
    read? (intText i ++ rest) = some (⟨decide (i < 0), natText i.natAbs, none, none⟩, rest) := by
  rw [intText_eq]
  split
  · rename_i hi
    rw [List.cons_append, read?, readWhole_natText true _ h]
    simp [hi]
  · rename_i hi
    have hread := readWhole_natText false i.natAbs h
    obtain ⟨b, ds, hds⟩ := List.exists_cons_of_ne_nil (natText_ne_nil i.natAbs)
    have hb : Bytes.isDigit b = true := isDigit_of_mem_natText (n := i.natAbs) (by simp [hds])
    rw [hds] at hread ⊢
    rw [read?]
    · simpa [hi] using hread
    · intro tail htail
      obtain rfl := (List.cons.inj htail).1
      exact absurd hb (by decide)

/-- The literal of an integer denotes it. -/
theorem integer?_intText {i : Int} (hlow : -(UInt64.size / 2 : Nat) ≤ i) (hhigh : i < UInt64.size) :
    integer? ⟨decide (i < 0), natText i.natAbs, none, none⟩ = some i := by
  have hvalue : Bytes.natOfDigits (natText i.natAbs) = i.natAbs := Bytes.natOfDigits_toDigits _
  simp only [integer?, hvalue, Option.isNone_none, Bool.and_self, ↓reduceIte]
  by_cases hi : i < 0
  · have hpos : 0 < i.natAbs := by omega
    have hle : i.natAbs ≤ UInt64.size / 2 := by omega
    simp only [hi, decide_true, ↓reduceIte, hpos, hle, Bool.and_self, Option.some.injEq]
    omega
  · have hlt : i.natAbs < UInt64.size := by omega
    simp only [hi, decide_false, hlt, ↓reduceIte, Bool.false_eq_true, Option.some.injEq]
    omega

end Numeral

/-- A written integer is read as such. -/
theorem reads_integer (expected : String) {low high i : Int} (hrange : low ≤ i ∧ i ≤ high)
    (hlow : -(UInt64.size / 2 : Nat) ≤ i) (hhigh : i < UInt64.size) :
    Reads (integer expected low high) (intText i) i := by
  intro n rest _ hrest
  have hread := Numeral.read?_intText i hrest
  have hvalue := Numeral.integer?_intText hlow hhigh
  obtain ⟨c, tail, htext, hc⟩ :
      ∃ c tail, intText i = c :: tail ∧ (c == 45 || Bytes.isDigit c) = true := by
    rw [intText_eq]
    split
    · exact ⟨45, _, rfl, by decide⟩
    · obtain ⟨b, ds, hds⟩ := List.exists_cons_of_ne_nil (natText_ne_nil i.natAbs)
      have hb : Bytes.isDigit b = true := isDigit_of_mem_natText (n := i.natAbs) (by simp [hds])
      exact ⟨b, ds, hds, by simp [hb]⟩
  have hspace : isSpace c = false := by
    cases hs : isSpace c with
    | false => rfl
    | true =>
      simp only [isSpace, Bool.or_eq_true, beq_iff_eq] at hs
      rcases hs with ((rfl | rfl) | rfl) | rfl <;> cases hc
  rw [htext] at hread ⊢
  simp only [integer, List.cons_append, skipSpace_of_not_isSpace hspace, hc, ↓reduceIte]
  rw [List.cons_append] at hread
  simp only [hread, hvalue, hrange, and_self, ↓reduceIte]

end AgentRelay.Json
