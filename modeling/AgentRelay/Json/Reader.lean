import AgentRelay.Json.Literal
import AgentRelay.Json.Number
import AgentRelay.Json.Extent
import AgentRelay.Text.Printable

/-!
# Reading JSON into typed values

A reader takes one value from the front of a text and answers with it and the bytes that follow,
or with the first fault. The text is never turned into a tree: a fault in front of another one
wins, whatever kinds the two are of.

* `Fault` is what a reader stops at: every fault of syntax is alike, the others say what stood
  where, and what was expected there.
* `string`, `boolean`, `integer`, `nullable` and `list` read values, `ignored` passes one over.
* `record` reads an object by its fields, or an array of the fields in their order.
* `readAll` reads a text that holds one value and nothing else.
-/

namespace AgentRelay.Json

/-! ### Faults -/

/-- What stands in place of the value that was expected. -/
inductive Found
  | null
  | boolean (value : Bool)
  | integer (value : Int)
  | float
  | string (value : String)
  | sequence
  | map
  deriving DecidableEq, Inhabited

/-- What stands there, in words. -/
def Found.text : Found → String
  | .null => "null"
  | .boolean value => s!"boolean `{value}`"
  | .integer value => s!"integer `{value}`"
  | .float => "floating point `_`"
  | .string value => "string " ++ Text.quoted value
  | .sequence => "sequence"
  | .map => "map"

/-- Why a JSON text is refused. -/
inductive Fault
  /-- Not JSON, not UTF-8, or a number that no double can hold. -/
  | malformed
  /-- A text that should be a date and is none. -/
  | date
  /-- A text that should be an identifier of a fixed form; the reason is given. -/
  | identifier (reason : String)
  | mistyped (found : Found) (expected : String)
  | outOfRange (value : Int) (expected : String)
  | duplicate (field : String)
  | missing (field : String)
  /-- A sequence that ends before its first field. -/
  | tooShort (expected : String)
  deriving DecidableEq, Inhabited

/-- The wording of a fault. -/
def Fault.message : Fault → String
  | .malformed => "invalid JSON"
  | .date => "invalid date"
  | .identifier reason => reason
  | .mistyped found expected => "invalid type: " ++ found.text ++ ", expected " ++ expected
  | .outOfRange value expected => s!"invalid value: integer `{value}`, expected {expected}"
  | .duplicate field => s!"duplicate field `{field}`"
  | .missing field => s!"missing field `{field}`"
  | .tooShort expected => s!"invalid length 0, expected {expected}"

/-! ### Readers -/

/-- Takes a value from the front of a text. The number bounds how often a loop may turn; a loop
takes at least one byte a turn, so the length of the whole text is enough. -/
def Reader (α : Type) : Type := Nat → Bytes → Except Fault (α × Bytes)

namespace Reader

/-- Reads nothing. -/
def pure {α : Type} (a : α) : Reader α := fun _ b => .ok (a, b)

/-- Reads two things in a row. -/
def bind {α β : Type} (r : Reader α) (f : α → Reader β) : Reader β := fun n b =>
  match r n b with
  | .ok (a, rest) => f a n rest
  | .error e => .error e

instance : Monad Reader where
  pure := Reader.pure
  bind := Reader.bind

/-- Changes what has been read. -/
def map {α β : Type} (r : Reader α) (f : α → β) : Reader β := r.bind fun a => .pure (f a)

/-- Stops with a fault. -/
def fail {α : Type} (e : Fault) : Reader α := fun _ _ => .error e

end Reader

/-- The bytes after the letters of a word. -/
def dropWord? : Bytes → Bytes → Option Bytes
  | [], rest => some rest
  | _ :: _, [] => none
  | w :: ws, b :: rest => if b == w then dropWord? ws rest else none

/-- Reads a word; any other bytes are a fault of syntax. -/
def word (w : Bytes) : Reader Unit := fun _ b =>
  match dropWord? w b with
  | some rest => .ok ((), rest)
  | none => .error .malformed

/-- The fault of a value of another type than expected. White space in front has been skipped. -/
def mistyped (expected : String) (b : Bytes) : Fault :=
  let found (x : Option Found) : Fault :=
    match x with
    | some x => .mistyped x expected
    | none => .malformed
  match b with
  | [] => .malformed
  | c :: rest =>
    if c == 110 then found ((dropWord? [117, 108, 108] rest).map fun _ => .null)
    else if c == 116 then found ((dropWord? [114, 117, 101] rest).map fun _ => .boolean true)
    else if c == 102 then
      found ((dropWord? [97, 108, 115, 101] rest).map fun _ => .boolean false)
    else if c == 45 || Bytes.isDigit c then
      match Numeral.read? b with
      | none => .malformed
      | some (n, _) =>
        match n.integer? with
        | some i => .mistyped (.integer i) expected
        | none => if n.overflows then .malformed else .mistyped .float expected
    else if c == 34 then found (((body? rest).bind fun (s, _) => textOfBody? s).map .string)
    else if c == 91 then .mistyped .sequence expected
    else if c == 123 then .mistyped .map expected
    else .malformed

/-- The text of a string whose opening quote has been read. -/
def stringRest : Reader String := fun _ b =>
  match body? b with
  | none => .error .malformed
  | some (body, rest) =>
    match textOfBody? body with
    | none => .error .malformed
    | some s => .ok (s, rest)

/-- Reads a string. -/
def stringAs (expected : String) : Reader String := fun n b =>
  match skipSpace b with
  | 34 :: rest => stringRest n rest
  | b => .error (mistyped expected b)

/-- Reads a string. -/
def string : Reader String := stringAs "a string"

/-- Reads a boolean. -/
def boolean : Reader Bool := fun _ b =>
  match skipSpace b with
  | 116 :: rest =>
    match dropWord? [114, 117, 101] rest with
    | some rest => .ok (true, rest)
    | none => .error .malformed
  | 102 :: rest =>
    match dropWord? [97, 108, 115, 101] rest with
    | some rest => .ok (false, rest)
    | none => .error .malformed
  | b => .error (mistyped "a boolean" b)

/-- Reads an integer between `low` and `high`. -/
def integer (expected : String) (low high : Int) : Reader Int := fun _ b =>
  let b := skipSpace b
  match b with
  | [] => .error .malformed
  | c :: _ =>
    if c == 45 || Bytes.isDigit c then
      match Numeral.read? b with
      | none => .error .malformed
      | some (n, rest) =>
        match n.integer? with
        | some i =>
          if low ≤ i ∧ i ≤ high then .ok (i, rest) else .error (.outOfRange i expected)
        | none => .error (if n.overflows then .malformed else .mistyped .float expected)
    else .error (mistyped expected b)

/-- Reads a value or `null`. -/
def nullable {α : Type} (r : Reader α) : Reader (Option α) := fun n b =>
  match skipSpace b with
  | 110 :: rest =>
    match dropWord? [117, 108, 108] rest with
    | some rest => .ok (none, rest)
    | none => .error .malformed
  | b => (r.map some) n b

/-- Passes over any value. -/
def ignored : Reader Unit := fun _ b =>
  match skipValue b with
  | none => .error .malformed
  | some rest => .ok ((), rest)

/-! ### Sequences -/

/-- Steps to the next element: `false` when the closing bracket is next, `true` when an element
is. A comma must stand between two elements and none before the bracket. -/
def nextItem (first : Bool) : Reader Bool := fun _ b =>
  match skipSpace b with
  | [] => .error .malformed
  | 93 :: rest => .ok (false, 93 :: rest)
  | c :: rest =>
    if first then .ok (true, c :: rest)
    else if c == 44 then
      match skipSpace rest with
      | 93 :: _ => .error .malformed
      | rest => .ok (true, rest)
    else .error .malformed

/-- Reads the elements of an array onto the reversed list `done`, at most `fuel` of them. -/
def items {α : Type} (r : Reader α) :
    Nat → Bool → List α → Nat → Bytes → Except Fault (List α × Bytes)
  | 0, _, _, _, _ => .error .malformed
  | fuel + 1, first, done, n, b =>
    match nextItem first n b with
    | .error e => .error e
    | .ok (false, rest) => .ok (done.reverse, rest)
    | .ok (true, rest) =>
      match r n rest with
      | .error e => .error e
      | .ok (a, rest) => items r fuel false (a :: done) n rest

/-- Reads the closing bracket. -/
def closeBracket : Reader Unit := fun _ b =>
  match skipSpace b with
  | 93 :: rest => .ok ((), rest)
  | _ => .error .malformed

/-- Reads an array. -/
def list {α : Type} (r : Reader α) : Reader (List α) := fun n b =>
  match skipSpace b with
  | 91 :: rest =>
    match items r (n + 1) true [] n rest with
    | .error e => .error e
    | .ok (l, rest) => (closeBracket.map fun _ => l) n rest
  | b => .error (mistyped "a sequence" b)

/-! ### Records -/

/-- A field of a record that is read into `σ`. -/
structure MemberReader (σ : Type) where
  name : String
  /-- Other names under which the field may stand. -/
  aliases : List String
  /-- Reads the value and stores it. -/
  read : Reader (σ → σ)

/-- A field with one name. -/
def field {σ α : Type} (name : String) (r : Reader α) (store : α → σ → σ) : MemberReader σ :=
  ⟨name, [], r.map store⟩

/-- The field that a key names. -/
def MemberReader.find? {σ : Type} (fields : List (MemberReader σ)) (key : String) : Option (MemberReader σ) :=
  fields.find? fun f => f.name == key || f.aliases.contains key

/-- Steps to the next key: `none` when the closing brace is next. -/
def nextKey (first : Bool) : Reader (Option String) := fun n b =>
  let key (b : Bytes) : Except Fault (Option String × Bytes) :=
    match b with
    | 34 :: rest => (stringRest.map some) n rest
    | _ => .error .malformed
  match skipSpace b with
  | [] => .error .malformed
  | 125 :: rest => .ok (none, 125 :: rest)
  | c :: rest =>
    if first then key (c :: rest)
    else if c == 44 then key (skipSpace rest)
    else .error .malformed

/-- Reads the colon after a key. -/
def colon : Reader Unit := fun _ b =>
  match skipSpace b with
  | 58 :: rest => .ok ((), rest)
  | _ => .error .malformed

/-- Reads a value that no field describes and keeps what has been read. -/
def skipMember {σ : Type} (s : σ) : Reader σ := do
  colon
  ignored
  return s

/-- Reads the value of a field into what has been read. -/
def readMember {σ : Type} (f : MemberReader σ) (s : σ) : Reader σ := do
  colon
  let store ← f.read
  return store s

/-- Reads the members of an object into `s`, at most `fuel` of them. A key that names a field for
the second time is a fault, and the values of other keys are passed over. -/
def members {σ : Type} (fields : List (MemberReader σ)) :
    Nat → Bool → List String → σ → Nat → Bytes → Except Fault (σ × Bytes)
  | 0, _, _, _, _, _ => .error .malformed
  | fuel + 1, first, seen, s, n, b =>
    match nextKey first n b with
    | .error e => .error e
    | .ok (none, rest) => .ok (s, rest)
    | .ok (some key, rest) =>
      match MemberReader.find? fields key with
      | none =>
        match skipMember s n rest with
        | .error e => .error e
        | .ok (s, rest) => members fields fuel false seen s n rest
      | some f =>
        if seen.contains f.name then .error (.duplicate f.name)
        else
          match readMember f s n rest with
          | .error e => .error e
          | .ok (s, rest) => members fields fuel false (f.name :: seen) s n rest

/-- Reads the fields in their order; fields at the end may be missing. -/
def positional {σ : Type} : List (MemberReader σ) → Bool → σ → Reader σ
  | [], _, s => return s
  | f :: fields, first, s => do
    if ← nextItem first then
      let store ← f.read
      positional fields false (store s)
    else return s

/-- Reads the closing brace. -/
def closeBrace : Reader Unit := fun _ b =>
  match skipSpace b with
  | 125 :: rest => .ok ((), rest)
  | _ => .error .malformed

/-- Reads a record: an object of its fields, or an array of them. Fields that are missing keep
what `start` has; `check` is asked before the closing bracket, and told whether it is an array. -/
def checkedRecord {σ : Type} (expected : String) (fields : List (MemberReader σ)) (start : σ)
    (check : Bool → σ → Option Fault) : Reader σ := fun n b =>
  let closed (isArray : Bool) (body : Reader σ) (close : Reader Unit) : Reader σ := do
    let s ← body
    match check isArray s with
    | some e => .fail e
    | none =>
      close
      return s
  match skipSpace b with
  | 91 :: rest => closed true (positional fields true start) closeBracket n rest
  | 123 :: rest => closed false (members fields (n + 1) true [] start) closeBrace n rest
  | b => .error (mistyped ("struct " ++ expected) b)

/-- Reads a record whose fields may all be missing. -/
def record {σ : Type} (expected : String) (fields : List (MemberReader σ)) (start : σ) : Reader σ :=
  checkedRecord expected fields start fun _ _ => none

/-- Reads a text that is one value with white space around it. -/
def readAll {α : Type} (r : Reader α) (b : Bytes) : Except Fault α :=
  match r b.length b with
  | .error e => .error e
  | .ok (a, rest) => if (skipSpace rest).isEmpty then .ok a else .error .malformed

end AgentRelay.Json
