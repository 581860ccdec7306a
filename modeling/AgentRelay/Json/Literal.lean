import AgentRelay.Bytes

/-!
# JSON strings, and writing JSON

A string is written between quotes with the quote, the backslash and control characters escaped;
all other bytes stand as they are. Reading finds the closing quote first and then resolves the
escapes of the body.

* `escape` and `unescape` work on the bytes between the quotes.
* `body?` cuts the bytes after an opening quote at the closing one.
* `object` and `array` write values without white space. An object is written from its members in
  order; members that are left out are simply not listed.
-/

namespace AgentRelay.Json

/-- A byte inside a written string. -/
def escapeByte (b : UInt8) : Bytes :=
  if b == 34 then [92, 34]
  else if b == 92 then [92, 92]
  else if b == 8 then [92, 98]
  else if b == 9 then [92, 116]
  else if b == 10 then [92, 110]
  else if b == 12 then [92, 102]
  else if b == 13 then [92, 114]
  else if b < 32 then
    [92, 117, 48, 48, Bytes.ascii (Bytes.hexDigit (b.toNat / 16)),
      Bytes.ascii (Bytes.hexDigit (b.toNat % 16))]
  else [b]

/-- The bytes of a written string between its quotes. -/
def escape (b : Bytes) : Bytes := b.flatMap escapeByte

/-- A written string. -/
def quote (s : String) : Bytes := 34 :: escape (Bytes.utf8 s) ++ [34]

/-- Cuts at the closing quote: the body, which is added to the bytes in `done`, and what follows. -/
def bodyOnto (done : Bytes) : Bytes → Option (Bytes × Bytes)
  | [] => none
  | b :: rest =>
    if b == 34 then some (done.reverse, rest)
    else if b == 92 then
      match rest with
      | [] => none
      | e :: rest => bodyOnto (e :: b :: done) rest
    else if b < 32 then none
    else bodyOnto (b :: done) rest

/-- The body of a string whose opening quote has been read, and what follows the closing one. -/
def body? (b : Bytes) : Option (Bytes × Bytes) := bodyOnto [] b

/-- The number that four hexadecimal digits write. -/
def hexWord? (a b c d : UInt8) : Option Nat := do
  let a ← Bytes.hexValue? a
  let b ← Bytes.hexValue? b
  let c ← Bytes.hexValue? c
  let d ← Bytes.hexValue? d
  return ((a * 16 + b) * 16 + c) * 16 + d

/-- What a backslash and one letter stand for. -/
def shortEscape? (e : UInt8) : Option UInt8 :=
  if e == 34 || e == 92 || e == 47 then some e
  else if e == 98 then some 8
  else if e == 102 then some 12
  else if e == 110 then some 10
  else if e == 114 then some 13
  else if e == 116 then some 9
  else none

/-- Puts the bytes of a code point in front of `done`, last byte first. -/
def pushCode (n : Nat) (done : Bytes) : Bytes :=
  (String.utf8EncodeChar (Char.ofNat n)).reverse ++ done

/-- Resolves the escapes of a body onto the reversed bytes `done`. A high surrogate must be
followed by the escape of a low one, and no other surrogate may stand alone. -/
def unescapeOnto (done : Bytes) : Bytes → Option Bytes
  | [] => some done.reverse
  | 92 :: 117 :: a :: b :: c :: d :: rest =>
    match hexWord? a b c d with
    | none => none
    | some n =>
      if n < 0xD800 || 0xDFFF < n then unescapeOnto (pushCode n done) rest
      else if 0xDC00 ≤ n then none
      else match rest with
        | 92 :: 117 :: a :: b :: c :: d :: rest =>
          match hexWord? a b c d with
          | none => none
          | some m =>
            if m < 0xDC00 || 0xDFFF < m then none
            else unescapeOnto (pushCode (0x10000 + (n - 0xD800) * 0x400 + (m - 0xDC00)) done) rest
        | _ => none
  | 92 :: e :: rest =>
    match shortEscape? e with
    | none => none
    | some x => unescapeOnto (x :: done) rest
  | 92 :: [] => none
  | b :: rest => unescapeOnto (b :: done) rest

/-- The bytes that a body stands for. -/
def unescape (b : Bytes) : Option Bytes := unescapeOnto [] b

/-- The text that a body stands for, if its escapes are valid and the result is UTF-8. -/
def textOfBody? (b : Bytes) : Option String := (unescape b).bind Bytes.ofUtf8?

/-! ### Values -/

/-- Pieces with a comma between them. -/
def commas (pieces : List Bytes) : Bytes := (pieces.intersperse [44]).flatten

/-- A written integer. -/
def intText (n : Int) : Bytes := Bytes.utf8 (toString n)

/-- A written member of an object. -/
def member (key : String) (value : Bytes) : Bytes := quote key ++ 58 :: value

/-- A written object. -/
def object (members : List Bytes) : Bytes := 123 :: commas members ++ [125]

/-- A written array. -/
def array (values : List Bytes) : Bytes := 91 :: commas values ++ [93]

/-- A member that is left out when there is no value. -/
def optional {α : Type} (key : String) (write : α → Bytes) : Option α → List Bytes
  | none => []
  | some a => [member key (write a)]

/-- A member that is left out when the text is empty. -/
def unlessEmpty (key : String) (s : String) : List Bytes :=
  if s.isEmpty then [] else [member key (quote s)]

/-- A member that is left out when the list is empty. -/
def unlessNil {α : Type} (key : String) (write : α → Bytes) (l : List α) : List Bytes :=
  if l.isEmpty then [] else [member key (array (l.map write))]

end AgentRelay.Json
