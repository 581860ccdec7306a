import AgentRelay.Bytes

/-!
# JSON numbers

A number literal without fraction and exponent is an integer when it lies between `-2^63` and
`2^64 - 1` and is not `-0`. Every other literal is a floating-point number, and refused when its
value is too large for a double.
-/

namespace AgentRelay.Json

/-- The parts of a number literal. -/
structure Numeral where
  negative : Bool
  whole : Bytes
  fraction : Option Bytes
  /-- The sign and the digits of the exponent. -/
  exponent : Option (Bool × Bytes)
  deriving DecidableEq

namespace Numeral

/-- The digits in front and what follows. -/
def digits (b : Bytes) : Bytes × Bytes :=
  let ds := b.takeWhile Bytes.isDigit
  (ds, b.drop ds.length)

/-- Reads the exponent, if one follows. -/
def readExponent (n : Numeral) : Bytes → Option (Numeral × Bytes)
  | [] => some (n, [])
  | b :: rest =>
    if b == 101 || b == 69 then
      let (negative, rest) := match rest with
        | 43 :: rest => (false, rest)
        | 45 :: rest => (true, rest)
        | rest => (false, rest)
      match digits rest with
      | ([], _) => none
      | (ds, rest) => some (⟨n.negative, n.whole, n.fraction, some (negative, ds)⟩, rest)
    else some (n, b :: rest)

/-- Reads the fraction and the exponent, if they follow. -/
def readFraction (n : Numeral) : Bytes → Option (Numeral × Bytes)
  | 46 :: rest =>
    match digits rest with
    | ([], _) => none
    | (ds, rest) => readExponent ⟨n.negative, n.whole, some ds, none⟩ rest
  | rest => readExponent n rest

/-- Reads the digits of a literal whose sign has been read; a leading zero stands alone. -/
def readWhole (negative : Bool) (b : Bytes) : Option (Numeral × Bytes) :=
  match digits b with
  | ([], _) => none
  | (48 :: _ :: _, _) => none
  | (ds, rest) => readFraction ⟨negative, ds, none, none⟩ rest

/-- Reads a literal. -/
def read? : Bytes → Option (Numeral × Bytes)
  | 45 :: rest => readWhole true rest
  | rest => readWhole false rest

/-- The integer that a literal denotes. -/
def integer? (n : Numeral) : Option Int :=
  let v := Bytes.natOfDigits n.whole
  if n.fraction.isNone && n.exponent.isNone then
    if n.negative then (if 0 < v && v ≤ UInt64.size / 2 then some (-(v : Int)) else none)
    else if v < UInt64.size then some (v : Int) else none
  else none

/-! ### Magnitude -/

/-- Appends a digit to a significand that must stay below `2^64`. -/
def significand? (n : Nat) (d : UInt8) : Option Nat :=
  let m := n * 10 + (d.toNat - 48)
  if m < UInt64.size then some m else none

/-- The significand of the whole part, and how many of its last digits were left out. -/
def wholePart : Nat → Bytes → Nat × Nat
  | n, [] => (n, 0)
  | n, d :: ds =>
    match significand? n d with
    | some m => wholePart m ds
    | none => (n, (d :: ds).length)

/-- The significand after the fraction, and how many digits of the fraction were used. -/
def fractionPart : Nat → Nat → Bytes → Nat × Nat
  | n, used, [] => (n, used)
  | n, used, d :: ds =>
    match significand? n d with
    | some m => fractionPart m (used + 1) ds
    | none => (n, used)

/-- A natural number rounded to fifty-three significant bits, ties to even. -/
def toDouble (n : Nat) : Nat :=
  let k := n.log2 + 1 - 53
  let q := n >>> k
  let r := n % Nat.pow 2 k
  let half := Nat.pow 2 k / 2
  (if half < r || (r == half && 0 < k && q % 2 == 1) then q + 1 else q) <<< k

/-- Whether the value is too large for a double: the significand and the power of ten are each
rounded to a double, and so is their product. -/
def overflows (n : Numeral) : Bool :=
  let (whole, dropped) := wholePart 0 n.whole
  let (significand, used) := fractionPart whole 0 (n.fraction.getD [])
  let written : Int := match n.exponent with
    | none => 0
    | some (negative, ds) =>
      if negative then -(Bytes.natOfDigits ds : Int) else (Bytes.natOfDigits ds : Int)
  let e : Int := written + dropped - used
  significand != 0 && (308 < e ||
    (0 ≤ e && Nat.pow 2 1024 - Nat.pow 2 970 ≤ toDouble significand * toDouble (Nat.pow 10 e.toNat)))

end Numeral
end AgentRelay.Json
