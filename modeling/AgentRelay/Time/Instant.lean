import AgentRelay.Text.Blank

/-!
# Spans of time and instants, and their written forms

A span is a number of nanoseconds. In messages it is written in the largest unit of which it holds
at least one, with a decimal fraction that has no trailing zeros.

An instant is a date of the Gregorian calendar, which is taken to hold for all years, and a time of
day in UTC. A leap second is the second 60 of its minute.

* `Span.text` writes a span.
* `Instant.text` writes an instant as in `2024-05-01T12:00:00Z`, with zero, three, six or nine digits
  of a second.
* `Instant.read?` reads that form and a few looser spellings of it, with any offset from UTC.
-/

namespace AgentRelay

/-! ### Spans -/

/-- A length of time. -/
structure Span where
  nanos : Nat
  deriving DecidableEq, Inhabited

namespace Span

/-- A span of whole milliseconds. -/
def ofMillis (n : Nat) : Span := ⟨n * 1000000⟩

/-- A span of whole seconds. -/
def ofSeconds (n : Nat) : Span := ⟨n * 1000000000⟩

/-- The whole milliseconds of a span. -/
def millis (d : Span) : Nat := d.nanos / 1000000

/-- No time at all. -/
def isZero (d : Span) : Bool := d.nanos == 0

/-- `n` with at least `w` digits. -/
def padDigits (w n : Nat) : List Char :=
  let ds := Nat.toDigits 10 n
  List.replicate (w - ds.length) '0' ++ ds

/-- `n / 10 ^ w` in decimal, without trailing zeros. -/
def decimal (w n : Nat) : String :=
  let fraction := ((padDigits w (n % Nat.pow 10 w)).reverse.dropWhile (· == '0')).reverse
  toString (n / Nat.pow 10 w) ++
    if fraction.isEmpty then "" else String.ofList ('.' :: fraction)

/-- The text of a span in messages. -/
def text (d : Span) : String :=
  if 1000000000 ≤ d.nanos then decimal 9 d.nanos ++ "s"
  else if 1000000 ≤ d.nanos then decimal 6 d.nanos ++ "ms"
  else if 1000 ≤ d.nanos then decimal 3 d.nanos ++ "µs"
  else toString d.nanos ++ "ns"

end Span

/-! ### Dates -/

/-- A leap year of the Gregorian calendar. -/
def isLeapYear (y : Int) : Bool := y % 4 == 0 && (y % 100 != 0 || y % 400 == 0)

/-- The number of days of a month. -/
def daysInMonth (y : Int) (m : Nat) : Nat :=
  if m == 2 then (if isLeapYear y then 29 else 28)
  else if m == 4 || m == 6 || m == 9 || m == 11 then 30
  else 31

/-- A date between the years −262143 and 262142. -/
structure Date where
  year : Int
  month : Nat
  day : Nat
  year_range : -262143 ≤ year ∧ year ≤ 262142
  month_range : 1 ≤ month ∧ month ≤ 12
  day_range : 1 ≤ day ∧ day ≤ daysInMonth year month
  deriving DecidableEq

namespace Date

/-- The date of a year, month and day that exist. -/
def of? (y : Int) (m d : Nat) : Option Date :=
  if h : (-262143 ≤ y ∧ y ≤ 262142) ∧ (1 ≤ m ∧ m ≤ 12) ∧ (1 ≤ d ∧ d ≤ daysInMonth y m) then
    some ⟨y, m, d, h.1, h.2.1, h.2.2⟩
  else none

@[simp] theorem of?_self (d : Date) : of? d.year d.month d.day = some d := by
  unfold of?
  rw [dif_pos ⟨d.year_range, d.month_range, d.day_range⟩]

/-- The day after. -/
def next? (d : Date) : Option Date :=
  if d.day < daysInMonth d.year d.month then of? d.year d.month (d.day + 1)
  else if d.month < 12 then of? d.year (d.month + 1) 1
  else of? (d.year + 1) 1 1

/-- The day before. -/
def previous? (d : Date) : Option Date :=
  if 1 < d.day then of? d.year d.month (d.day - 1)
  else if 1 < d.month then of? d.year (d.month - 1) (daysInMonth d.year (d.month - 1))
  else of? (d.year - 1) 12 31

end Date

/-- A point in time, in UTC. -/
structure Instant where
  date : Date
  /-- The minute of the day. -/
  minute : Nat
  /-- The second of the minute, 60 in a leap second. -/
  second : Nat
  nano : Nat
  minute_lt : minute < 1440
  second_le : second ≤ 60
  nano_lt : nano < 1000000000
  deriving DecidableEq

namespace Instant

/-- The start of 1970. -/
def epoch : Instant where
  date := ⟨1970, 1, 1, by decide, by decide, by decide⟩
  minute := 0
  second := 0
  nano := 0
  minute_lt := by decide
  second_le := by decide
  nano_lt := by decide

instance : Inhabited Instant := ⟨epoch⟩

/-- The instant of a date and a time of day that exist. -/
def of? (date : Date) (minute second nano : Nat) : Option Instant :=
  if h : minute < 1440 ∧ second ≤ 60 ∧ nano < 1000000000 then
    some ⟨date, minute, second, nano, h.1, h.2.1, h.2.2⟩
  else none

/-! ### Writing -/

/-- A year: four digits, or a sign and at least four digits outside 0 to 9999. -/
def yearText (y : Int) : List Char :=
  if 0 ≤ y ∧ y ≤ 9999 then Span.padDigits 4 y.toNat
  else (if y < 0 then '-' else '+') :: Span.padDigits 4 y.natAbs

/-- The fraction of a second, to the millisecond, microsecond or nanosecond. -/
def fractionText (nano : Nat) : List Char :=
  if nano == 0 then []
  else if nano % 1000000 == 0 then '.' :: Span.padDigits 3 (nano / 1000000)
  else if nano % 1000 == 0 then '.' :: Span.padDigits 6 (nano / 1000)
  else '.' :: Span.padDigits 9 nano

/-- The characters of the written form. -/
def chars (t : Instant) : List Char :=
  yearText t.date.year ++ '-' :: Span.padDigits 2 t.date.month ++ '-' :: Span.padDigits 2 t.date.day ++
    'T' :: Span.padDigits 2 (t.minute / 60) ++ ':' :: Span.padDigits 2 (t.minute % 60) ++
    ':' :: Span.padDigits 2 t.second ++ fractionText t.nano ++ ['Z']

/-- The written form. -/
def text (t : Instant) : String := String.ofList t.chars

/-! ### Reading -/

/-- The digits in front, at most `most` of them, and what follows. -/
def digitsUpTo (most : Nat) (cs : List Char) : List Char × List Char :=
  let ds := (cs.take most).takeWhile Char.isDigit
  (ds, cs.drop ds.length)

/-- The number that decimal digits write. -/
def natOfChars (ds : List Char) : Nat := ds.foldl (fun n d => n * 10 + (d.toNat - 48)) 0

/-- A number of at least one and at most `most` digits. -/
def number? (most : Nat) (cs : List Char) : Option (Nat × List Char) :=
  match digitsUpTo most cs with
  | ([], _) => none
  | (ds, rest) => some (natOfChars ds, rest)

/-- A number after optional white space. -/
def field? (most : Nat) (cs : List Char) : Option (Nat × List Char) :=
  number? most (Text.trimStart cs)

/-- A year: up to four digits, or a sign and any number of digits. -/
def year? (cs : List Char) : Option (Int × List Char) :=
  match Text.trimStart cs with
  | '-' :: rest => (number? rest.length rest).map fun (n, r) => (-(n : Int), r)
  | '+' :: rest => (number? rest.length rest).map fun (n, r) => ((n : Int), r)
  | rest => (number? 4 rest).map fun (n, r) => ((n : Int), r)

/-- The separator `c` after optional white space. -/
def mark? (c : Char) (cs : List Char) : Option (List Char) :=
  match Text.trimStart cs with
  | [] => none
  | x :: rest => if x == c then some rest else none

/-- The fraction of a second; digits past the ninth are dropped. -/
def fraction? : List Char → Option (Nat × List Char)
  | '.' :: cs =>
    match digitsUpTo 9 cs with
    | ([], _) => none
    | (ds, rest) => some (natOfChars ds * Nat.pow 10 (9 - ds.length), rest.dropWhile Char.isDigit)
  | cs => some (0, cs)

/-- The letters of `UTC`, in either case. -/
def utcName? : List Char → Option (List Char)
  | u :: t :: c :: rest =>
    if u.toUpper == 'U' && t.toUpper == 'T' && c.toUpper == 'C' then some rest else none
  | _ => none

/-- The offset after its sign: hours, optional colons and white space, and minutes. -/
def offsetMinutes? : List Char → Option (Nat × List Char)
  | h₁ :: h₂ :: rest =>
    if h₁.isDigit && h₂.isDigit then
      match rest.dropWhile (fun c => c == ':' || Text.isBlank c) with
      | m₁ :: m₂ :: rest =>
        if m₁.isDigit && m₁.toNat < 54 && m₂.isDigit then
          some (natOfChars [h₁, h₂] * 60 + natOfChars [m₁, m₂], rest)
        else none
      | _ => none
    else none
  | _ => none

/-- The offset from UTC in minutes: `Z`, `UTC`, or a signed time below a whole day. -/
def offset? (cs : List Char) : Option (Int × List Char) :=
  match utcName? cs with
  | some rest => some (0, rest)
  | none =>
    match cs with
    | [] => none
    | c :: rest =>
      if c == 'Z' || c == 'z' then some (0, rest)
      else if c == '+' then
        (offsetMinutes? rest).bind fun (n, r) => if n < 1440 then some ((n : Int), r) else none
      else if c == '-' || c.toNat == 0x2212 then
        (offsetMinutes? rest).bind fun (n, r) => if n < 1440 then some (-(n : Int), r) else none
      else none

/-- The instant whose local date and minute of the day are these at an offset from UTC. -/
def ofLocal? (date : Date) (minute second nano : Nat) (offset : Int) : Option Instant :=
  let m : Int := minute - offset
  if m < 0 then date.previous?.bind fun d => of? d (m + 1440).toNat second nano
  else if 1440 ≤ m then date.next?.bind fun d => of? d (m - 1440).toNat second nano
  else of? date m.toNat second nano

/-- Reads a date. -/
def date? (cs : List Char) : Option (Date × List Char) := do
  let (y, cs) ← year? cs
  let cs ← mark? '-' cs
  let (m, cs) ← field? 2 cs
  let cs ← mark? '-' cs
  let (d, cs) ← field? 2 cs
  let date ← Date.of? y m d
  return (date, cs)

/-- Reads the instant that a text writes. -/
def read? (s : String) : Option Instant := do
  let (date, cs) ← date? s.toList
  let cs ← match cs with
    | c :: rest => if c == 'T' || c == 't' || c == ' ' then some rest else none
    | [] => none
  let (hour, cs) ← field? 2 cs
  let cs ← mark? ':' cs
  let (minute, cs) ← field? 2 cs
  let cs ← mark? ':' cs
  let (second, cs) ← field? 2 cs
  let (nano, cs) ← fraction? cs
  let (offset, cs) ← offset? (Text.trimStart cs)
  if hour < 24 && minute < 60 && (Text.trimStart cs).isEmpty then
    ofLocal? date (hour * 60 + minute) second nano offset
  else none

end Instant
end AgentRelay
