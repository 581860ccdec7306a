import AgentRelay.Bytes

/-!
# Reading text from bytes that may not be text

Every byte sequence is shown: where it stops being UTF-8, the longest start of a character that
was still possible becomes one replacement character `U+FFFD`.
-/

namespace AgentRelay.Text

/-- The replacement character. -/
def replacement : Char := Char.ofNat 0xFFFD

/-- Whether `b` lies between `low` and `high`. -/
def between (low high b : UInt8) : Bool := low ≤ b && b ≤ high

/-- The six low bits that a continuation byte adds to a code point. -/
def continued (n : Nat) (b : UInt8) : Nat := n * 64 + (b.toNat - 0x80)

/-- Reads the last `k` continuation bytes of a character whose leading bytes gave `n`. -/
def lossyTail : Nat → Nat → Bytes → Char × Bytes
  | 0, n, rest => (Char.ofNat n, rest)
  | _ + 1, _, [] => (replacement, [])
  | k + 1, n, b :: rest =>
    if between 0x80 0xBF b then lossyTail k (continued n b) rest else (replacement, b :: rest)

/-- Reads the continuation bytes of a character, the first of them between `low` and `high`. -/
def lossyRest (low high : UInt8) (k n : Nat) : Bytes → Char × Bytes
  | [] => (replacement, [])
  | b :: rest =>
    if between low high b then lossyTail k (continued n b) rest else (replacement, b :: rest)

/-- Reads the character that starts with the byte `b`. -/
def lossyChar (b : UInt8) (rest : Bytes) : Char × Bytes :=
  if b < 0x80 then (Char.ofNat b.toNat, rest)
  else if between 0xC2 0xDF b then lossyRest 0x80 0xBF 0 (b.toNat - 0xC0) rest
  else if b == 0xE0 then lossyRest 0xA0 0xBF 1 0 rest
  else if b == 0xED then lossyRest 0x80 0x9F 1 13 rest
  else if between 0xE1 0xEF b then lossyRest 0x80 0xBF 1 (b.toNat - 0xE0) rest
  else if b == 0xF0 then lossyRest 0x90 0xBF 2 0 rest
  else if between 0xF1 0xF3 b then lossyRest 0x80 0xBF 2 (b.toNat - 0xF0) rest
  else if b == 0xF4 then lossyRest 0x80 0x8F 2 4 rest
  else (replacement, rest)

theorem lossyTail_length (k n : Nat) (bs : Bytes) : (lossyTail k n bs).2.length ≤ bs.length := by
  induction k generalizing n bs with
  | zero => exact Nat.le_refl _
  | succ k ih =>
    cases bs with
    | nil => exact Nat.le_refl _
    | cons b rest =>
      by_cases h : between 0x80 0xBF b = true
      · simp only [lossyTail, if_pos h]
        exact Nat.le_succ_of_le (ih _ rest)
      · simp only [lossyTail, if_neg h, Nat.le_refl]

theorem lossyRest_length (low high : UInt8) (k n : Nat) (bs : Bytes) :
    (lossyRest low high k n bs).2.length ≤ bs.length := by
  cases bs with
  | nil => exact Nat.le_refl _
  | cons b rest =>
    by_cases h : between low high b = true
    · simp only [lossyRest, if_pos h]
      exact Nat.le_succ_of_le (lossyTail_length k _ rest)
    · simp only [lossyRest, if_neg h, Nat.le_refl]

theorem lossyChar_length (b : UInt8) (rest : Bytes) : (lossyChar b rest).2.length ≤ rest.length := by
  unfold lossyChar
  repeat' split
  all_goals first | exact Nat.le_refl _ | exact lossyRest_length _ _ _ _ _

/-- The characters read so far, reversed, followed by those of `bs`. -/
def lossyChars (done : List Char) (bs : Bytes) : List Char :=
  match bs with
  | [] => done.reverse
  | b :: rest => lossyChars ((lossyChar b rest).1 :: done) (lossyChar b rest).2
termination_by bs.length
decreasing_by exact Nat.lt_succ_of_le (lossyChar_length b rest)

/-- The text that shows the bytes. -/
def lossy (bs : Bytes) : String := String.ofList (lossyChars [] bs)

end AgentRelay.Text
