import AgentRelay.Digest.Sha256
import AgentRelay.Text.Blank
import AgentRelay.Json.Reader

/-!
# Identifiers of activities

The tracker accepts an identifier chosen by the sender, a UUID. It is taken from the digest of the
activity's idempotency key, so that a repeated request lands on the activity it already made.

* `ActivityId.ofKey` is the identifier of a key.
* `ActivityId.text` is its written form, `ActivityId.parse` reads that form, the same digits
  without hyphens, and the hyphenated form in braces or after `urn:uuid:`, all in either case.
-/

namespace AgentRelay

/-- A UUID: sixteen bytes. -/
structure ActivityId where
  bytes : Vector UInt8 16
  deriving DecidableEq

namespace ActivityId

/-- Marks a byte of a random UUID: the version in byte 6, the variant in byte 8. -/
def stamp (i : Nat) (b : UInt8) : UInt8 :=
  if i == 6 then (b &&& 0x0F) ||| 0x40 else if i == 8 then (b &&& 0x3F) ||| 0x80 else b

/-- The random UUID made of the first sixteen bytes. -/
def ofRandom (b : Bytes) : ActivityId := ⟨Vector.ofFn fun i => stamp i (b.getD i 0)⟩

/-- The identifier of an idempotency key. White space around the key does not count. -/
def ofKey (key : String) : ActivityId := ofRandom (Digest.Sha256.digest (Bytes.utf8 (Text.trim key)))

/-! ### Written form -/

/-- The digits of the identifier, two for a byte. -/
def digits (id : ActivityId) : List Char := (Bytes.toHex id.bytes.toList).toList

/-- Digits in groups of 8, 4, 4, 4 and 12. -/
def hyphenated (ds : List Char) : List Char :=
  ds.take 8 ++ '-' :: (ds.drop 8).take 4 ++ '-' :: (ds.drop 12).take 4 ++
    '-' :: (ds.drop 16).take 4 ++ '-' :: ds.drop 20

/-- The written form. -/
def text (id : ActivityId) : String := String.ofList (hyphenated id.digits)

/-! ### Reading -/

/-- The identifier of thirty-two digits. -/
def ofDigits? (ds : Bytes) : Option ActivityId :=
  (Bytes.ofHexDigits? ds).bind fun bs =>
    if h : bs.length = 16 then some ⟨⟨bs.toArray, by simpa using h⟩⟩ else none

/-- The identifier of digits in groups of 8, 4, 4, 4 and 12 with hyphens between them. -/
def ofHyphenated? (b : Bytes) : Option ActivityId :=
  if b.length == 36 && b.getD 8 0 == 45 && b.getD 13 0 == 45 && b.getD 18 0 == 45 &&
      b.getD 23 0 == 45 then
    ofDigits? (b.take 8 ++ (b.drop 9).take 4 ++ (b.drop 14).take 4 ++ (b.drop 19).take 4 ++ b.drop 24)
  else none

/-- What may stand in front of the hyphenated form, with letters of either case. -/
def urn : String := "urn:uuid:"

/-- A text starts with `urn:uuid:`. -/
def isUrn (b : Bytes) : Bool := (b.take 9).map Bytes.toLower == Bytes.utf8 urn

/-- The identifier that bytes write. -/
def ofBytes? (b : Bytes) : Option ActivityId :=
  if b.length == 32 then ofDigits? b
  else if b.length == 36 then ofHyphenated? b
  else if b.length == 38 && b.head? == some 123 && b.getLast? == some 125 then
    ofHyphenated? (b.drop 1).dropLast
  else if b.length == 45 && isUrn b then ofHyphenated? (b.drop 9)
  else none

/-- The identifier that a text writes. -/
def ofText? (s : String) : Option ActivityId := ofBytes? (Bytes.utf8 s)

/-! ### Refusals -/

/-- The part of a text that should hold the digits, where it starts, and whether it stands bare. -/
def digitPart (s : String) : List Char × Nat × Bool :=
  match s.toList with
  | '\x7b' :: cs =>
    if cs.getLast? == some '\x7d' then (cs.dropLast, 1, false) else ('\x7b' :: cs, 0, true)
  | cs => if isUrn (Bytes.utf8 s) then (cs.drop 9, 9, false) else (cs, 0, true)

/-- The first character that is neither a hyphen nor a hexadecimal digit, with the byte at which it
stands, counted from `at_`. -/
def badChar? (at_ : Nat) : List Char → Option (Char × Nat)
  | [] => none
  | c :: cs =>
    if c == '-' || (c.toNat < 128 && (Bytes.hexValue? (Bytes.ascii c)).isSome) then
      badChar? (at_ + c.utf8Size) cs
    else some (c, at_)

/-- The positions of the hyphens. -/
def hyphens (cs : List Char) : List Nat :=
  (cs.zipIdx.filter fun p => p.1 == '-').map (·.2)

/-- The length of the first group that has not the length it should have, and its number. -/
def badGroup (bounds : List Nat) (size : Nat) : Nat × Nat :=
  match (bounds.zip [8, 13, 18, 23]).zipIdx.find? fun p => p.1.1 != p.1.2 with
  | some ((found, _), i) => (i, found - [0, 9, 14, 19].getD i 0)
  | none => (4, size - 24)

/-- Why a text that is no identifier is refused. -/
def refusal (s : String) : String :=
  let (cs, offset, bare) := digitPart s
  match badChar? offset cs with
  | some (c, i) => s!"invalid character: found `{c}` at {i}"
  | none =>
    let bounds := hyphens cs
    if bounds.isEmpty && bare then
      s!"invalid length: found {s.utf8ByteSize}"
    else if bounds.length ≠ 4 then
      s!"invalid group count: expected 5, found {bounds.length + 1}"
    else
      let (group, found) := badGroup bounds s.utf8ByteSize
      s!"invalid group length in group {group}: expected {[8, 4, 4, 4, 12].getD group 0}, found {found}"

/-- Reads an identifier, or says why there is none. -/
def parse (s : String) : Except String ActivityId :=
  match ofText? s with
  | some id => .ok id
  | none => .error (refusal s)

open Json

/-- Reads an identifier from a JSON string. -/
def reader : Reader ActivityId := fun n b =>
  match stringAs "a formatted UUID string" n b with
  | .error e => .error e
  | .ok (s, rest) =>
    match parse s with
    | .ok id => .ok (id, rest)
    | .error reason => .error (.identifier ("UUID parsing failed: " ++ reason))

/-- The identifier as a JSON string. -/
def json (id : ActivityId) : Bytes := quote id.text

end ActivityId
end AgentRelay
