import AgentRelay.Bytes

/-!
# Socket addresses

An address to listen on: an IPv4 address and a port, or an IPv6 address in brackets, with an
optional scope, and a port.

* `SocketAddress.read?` reads an address.
* `SocketAddress.text` writes it: the longest run of zero groups is left out, and an IPv4 address
  that is mapped into IPv6 keeps its dots.
-/

namespace AgentRelay

/-- An address and a port. -/
inductive SocketAddress
  | v4 (octets : List Nat) (port : Nat)
  | v6 (groups : List Nat) (scope : Nat) (port : Nat)
  deriving DecidableEq, Inhabited

namespace SocketAddress

/-! ### Reading -/

/-- The value of a digit. -/
def digitValue? (radix : Nat) (c : Char) : Option Nat :=
  if 128 ≤ c.toNat then none
  else (Bytes.hexValue? (Bytes.ascii c)).bind fun n => if n < radix then some n else none

/-- A number of at most `most` digits that is not above `limit`. Leading zeros are allowed only
where `zeros` says so. -/
def number? (radix : Nat) (most : Option Nat) (zeros : Bool) (limit : Nat) (cs : List Char) :
    Option (Nat × List Char) :=
  let digits := cs.takeWhile fun c => (digitValue? radix c).isSome
  let n := digits.foldl (fun n c => n * radix + (digitValue? radix c).getD 0) 0
  if digits.isEmpty || most.any (· < digits.length) || limit < n then none
  else if !zeros && digits.head? == some '0' && 1 < digits.length then none
  else some (n, cs.drop digits.length)

/-- What follows a mark. -/
def after? (mark : Char) : List Char → Option (List Char)
  | [] => none
  | c :: cs => if c == mark then some cs else none

/-- A byte in decimal. -/
def octet? (cs : List Char) : Option (Nat × List Char) := number? 10 (some 3) false 255 cs

/-- Four bytes with dots between them. -/
def octets? (cs : List Char) : Option (List Nat × List Char) := do
  let (a, cs) ← octet? cs
  let (b, cs) ← (after? '.' cs).bind octet?
  let (c, cs) ← (after? '.' cs).bind octet?
  let (d, cs) ← (after? '.' cs).bind octet?
  return ([a, b, c, d], cs)

/-- The two groups of four bytes. -/
def groupsOfOctets : List Nat → List Nat
  | [a, b, c, d] => [a * 256 + b, c * 256 + d]
  | _ => []

/-- Reads groups with colons between them, at most as many as given, and stops where no group
follows. Four bytes with dots may stand for the last two groups; the flag tells so. -/
def readGroups (first : Bool) : Nat → List Char → List Nat × Bool × List Char
  | 0, cs => ([], false, cs)
  | left + 1, cs =>
    let start := if first then some cs else after? ':' cs
    match if 1 ≤ left then start.bind octets? else none with
    | some (octets, rest) => (groupsOfOctets octets, true, rest)
    | none =>
      match start.bind (number? 16 (some 4) true 65535) with
      | none => ([], false, cs)
      | some (group, rest) =>
        let (groups, dotted, rest) := readGroups false left rest
        (group :: groups, dotted, rest)

/-- Eight groups; two colons stand for a run of zeros. -/
def groups? (cs : List Char) : Option (List Nat × List Char) :=
  match readGroups true 8 cs with
  | (front, dotted, rest) =>
    if front.length == 8 then some (front, rest)
    else if dotted then none
    else do
      let rest ← (after? ':' rest).bind (after? ':')
      let (back, _, rest) := readGroups true (7 - front.length) rest
      return (front ++ List.replicate (8 - front.length - back.length) 0 ++ back, rest)

/-- A colon and a port at the end. -/
def port? (cs : List Char) : Option Nat := do
  let (port, rest) ← (after? ':' cs).bind (number? 10 none true 65535)
  if rest.isEmpty then some port else none

/-- The scope of an address, if one is given. -/
def scope (cs : List Char) : Nat × List Char :=
  ((after? '%' cs).bind (number? 10 none true (UInt32.size - 1))).getD (0, cs)

/-- Reads an IPv4 address and a port. -/
def readV4? (cs : List Char) : Option SocketAddress := do
  let (octets, rest) ← octets? cs
  let port ← port? rest
  return .v4 octets port

/-- Reads an IPv6 address in brackets and a port. -/
def readV6? (cs : List Char) : Option SocketAddress := do
  let (groups, rest) ← (after? '[' cs).bind groups?
  let (scope, rest) := scope rest
  let port ← (after? ']' rest).bind port?
  return .v6 groups scope port

/-- Reads an address. -/
def read? (s : String) : Option SocketAddress := readV4? s.toList <|> readV6? s.toList

/-! ### Writing -/

/-- Four bytes with dots between them. -/
def octetsText (octets : List Nat) : String := ".".intercalate (octets.map toString)

/-- Groups with colons between them. -/
def groupsText (groups : List Nat) : String :=
  ":".intercalate (groups.map fun g => String.ofList (Nat.toDigits 16 g))

/-- Where the longest run of zero groups starts, the first of them if there are several, and its
length. -/
def longestZeros (groups : List Nat) : Nat × Nat :=
  (List.range groups.length).foldl (fun best i =>
    let n := ((groups.drop i).takeWhile (· == 0)).length
    if best.2 < n then (i, n) else best) (0, 0)

/-- An IPv6 address. -/
def v6Text : List Nat → String
  | [0, 0, 0, 0, 0, 0xFFFF, a, b] => "::ffff:" ++ octetsText [a / 256, a % 256, b / 256, b % 256]
  | groups =>
    match longestZeros groups with
    | (start, n) =>
      if 1 < n then groupsText (groups.take start) ++ "::" ++ groupsText (groups.drop (start + n))
      else groupsText groups

/-- The written form. -/
def text : SocketAddress → String
  | v4 octets port => octetsText octets ++ ":" ++ toString port
  | v6 groups scope port =>
    "[" ++ v6Text groups ++ (if scope == 0 then "" else "%" ++ toString scope) ++ "]:" ++
      toString port

end SocketAddress
end AgentRelay
