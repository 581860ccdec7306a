import AgentRelay.Bytes

/-!
# How far a JSON value extends

Values that no type describes are passed over: they must be well-formed JSON, but their numbers,
the depth of their nesting and the characters of their strings are not looked at. A machine that
takes one byte a step, with the open brackets on a stack, finds where such a value ends.

* `step` is one byte, `extent` the bytes that remain after the value.
* `valueText?` cuts a text into the value in front and what follows it.
-/

namespace AgentRelay.Json

/-- JSON white space. -/
def isSpace (b : UInt8) : Bool := b == 32 || b == 9 || b == 10 || b == 13

/-- Without the white space in front. -/
def skipSpace (b : Bytes) : Bytes := b.dropWhile isSpace

/-- An open bracket. -/
inductive Frame
  | array
  | object
  deriving DecidableEq

/-- Where the machine stands. -/
inductive Phase
  /-- Before a value. -/
  | value
  /-- After an opening bracket of an array: before a value or the closing bracket. -/
  | item
  /-- After an opening brace: before a key or the closing brace. -/
  | member
  /-- Before a key. -/
  | key
  /-- After a key. -/
  | colon
  /-- After a value. -/
  | after
  | text (isKey : Bool)
  | escape (isKey : Bool)
  /-- Before the last `left + 1` digits of an escape. -/
  | hex (isKey : Bool) (left : Nat)
  /-- Before the remaining letters of a word. -/
  | word (rest : Bytes)
  | minus
  | zero
  | whole
  | point
  | fraction
  | mark
  | sign
  | exponent
  deriving DecidableEq

namespace Phase

/-- A value may end here. -/
def ends : Phase → Bool
  | .after | .zero | .whole | .fraction | .exponent => true
  | _ => false

/-- The phase after a string. -/
def afterText (isKey : Bool) : Phase := if isKey then .colon else .after

end Phase

/-- The first byte of a value. -/
def startValue (stack : List Frame) (b : UInt8) : Option (Phase × List Frame) :=
  if b == 34 then some (.text false, stack)
  else if b == 91 then some (.item, .array :: stack)
  else if b == 123 then some (.member, .object :: stack)
  else if b == 45 then some (.minus, stack)
  else if b == 48 then some (.zero, stack)
  else if Bytes.isDigit b then some (.whole, stack)
  else if b == 116 then some (.word [114, 117, 101], stack)
  else if b == 102 then some (.word [97, 108, 115, 101], stack)
  else if b == 110 then some (.word [117, 108, 108], stack)
  else none

/-- A byte after a value inside a bracket. -/
def afterValue (stack : List Frame) (b : UInt8) : Option (Phase × List Frame) :=
  match stack with
  | [] => none
  | .array :: outer =>
    if isSpace b then some (.after, stack)
    else if b == 44 then some (.value, stack)
    else if b == 93 then some (.after, outer)
    else none
  | .object :: outer =>
    if isSpace b then some (.after, stack)
    else if b == 44 then some (.key, stack)
    else if b == 125 then some (.after, outer)
    else none

/-- The phase that a byte of a number leads to. -/
def numberStep (p : Phase) (b : UInt8) : Option Phase :=
  let digit := Bytes.isDigit b
  match p with
  | .minus => if b == 48 then some .zero else if digit then some .whole else none
  | .zero =>
    if b == 46 then some .point else if b == 101 || b == 69 then some .mark else none
  | .whole =>
    if digit then some .whole
    else if b == 46 then some .point else if b == 101 || b == 69 then some .mark else none
  | .point => if digit then some .fraction else none
  | .fraction =>
    if digit then some .fraction else if b == 101 || b == 69 then some .mark else none
  | .mark =>
    if b == 43 || b == 45 then some .sign else if digit then some .exponent else none
  | .sign => if digit then some .exponent else none
  | .exponent => if digit then some .exponent else none
  | _ => none

/-- One byte: where the machine stands after it, or `none` where it cannot belong to the value. -/
def step (p : Phase) (stack : List Frame) (b : UInt8) : Option (Phase × List Frame) :=
  match p with
  | .value => if isSpace b then some (.value, stack) else startValue stack b
  | .item =>
    if isSpace b then some (.item, stack)
    else if b == 93 then some (.after, stack.tail)
    else startValue stack b
  | .member =>
    if isSpace b then some (.member, stack)
    else if b == 34 then some (.text true, stack)
    else if b == 125 then some (.after, stack.tail)
    else none
  | .key =>
    if isSpace b then some (.key, stack)
    else if b == 34 then some (.text true, stack)
    else none
  | .colon =>
    if isSpace b then some (.colon, stack) else if b == 58 then some (.value, stack) else none
  | .after => afterValue stack b
  | .text isKey =>
    if b == 34 then some (.afterText isKey, stack)
    else if b == 92 then some (.escape isKey, stack)
    else if b < 32 then none
    else some (.text isKey, stack)
  | .escape isKey =>
    if b == 117 then some (.hex isKey 3, stack)
    else if b == 34 || b == 92 || b == 47 || b == 98 || b == 102 || b == 110 || b == 114 ||
      b == 116 then some (.text isKey, stack)
    else none
  | .hex isKey left =>
    if (Bytes.hexValue? b).isNone then none
    else match left with
      | 0 => some (.text isKey, stack)
      | left + 1 => some (.hex isKey left, stack)
  | .word [] => none
  | .word [x] => if b == x then some (.after, stack) else none
  | .word (x :: xs) => if b == x then some (.word xs, stack) else none
  | p =>
    match numberStep p b with
    | some p => some (p, stack)
    | none => if p.ends then afterValue stack b else none

/-- The bytes that follow the value, when the machine stands at `p` inside the brackets `stack`. -/
def extent (p : Phase) (stack : List Frame) : Bytes → Option Bytes
  | [] => if p.ends && stack.isEmpty then some [] else none
  | b :: rest =>
    match step p stack b with
    | some (p, stack) => extent p stack rest
    | none => if p.ends && stack.isEmpty then some (b :: rest) else none

/-- The bytes after the value in front. -/
def skipValue (b : Bytes) : Option Bytes := extent .value [] b

/-- The exact text of the value in front, without white space around it, and what follows. -/
def valueText? (b : Bytes) : Option (Bytes × Bytes) :=
  let b := skipSpace b
  (skipValue b).map fun rest => (b.take (b.length - rest.length), rest)

end AgentRelay.Json
