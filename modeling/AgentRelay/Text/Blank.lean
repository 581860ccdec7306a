import AgentRelay.Bytes

/-!
# Blank characters, trimming, lines and words

White space here is the Unicode property `White_Space`. Identifiers, bodies and settings are
compared after trimming, and a text is blank when nothing is left of it.

* `trim` removes white space at both ends, `filled?` also refuses what is then empty.
* `lines` cuts at line feeds, `words` at runs of white space.
* `inRanges` is how the larger classes of characters are given, as ranges of code points.
-/

namespace AgentRelay.Text

/-- Whether a code point lies in one of the ranges. -/
def inRanges (ranges : List (Nat × Nat)) (n : Nat) : Bool := ranges.any fun r => r.1 ≤ n && n ≤ r.2

/-- White space: the Unicode property `White_Space`. -/
def isBlank (c : Char) : Bool :=
  let n := c.toNat
  (9 ≤ n && n ≤ 13) || n == 0x20 || n == 0x85 || n == 0xA0 || n == 0x1680 ||
    (0x2000 ≤ n && n ≤ 0x200A) || n == 0x2028 || n == 0x2029 || n == 0x202F || n == 0x205F ||
    n == 0x3000

/-- Without white space in front. -/
def trimStart (cs : List Char) : List Char := cs.dropWhile isBlank

/-- Without white space at the end. -/
def trimEnd (cs : List Char) : List Char := Bytes.dropEndWhile isBlank cs

/-- Without white space at both ends. -/
def trimChars (cs : List Char) : List Char := trimEnd (trimStart cs)

/-- Without white space at both ends. -/
def trim (s : String) : String := String.ofList (trimChars s.toList)

/-- Nothing is left after trimming. -/
def isBlankText (s : String) : Bool := s.toList.all isBlank

/-- The trimmed text, unless it is blank. -/
def filled? (s : String) : Option String :=
  if isBlankText s then none else some (trim s)

/-- The trimmed text of the first candidate that is not blank. -/
def firstFilled? (candidates : List String) : Option String := candidates.findSome? filled?

/-- Cuts after every element that satisfies `p`; what follows the last cut is a piece of its own
only when it is not empty. -/
def piecesAfter {α : Type} (p : α → Bool) (l : List α) : List (List α) :=
  go l [] []
where
  /-- The pieces found and the current piece, both reversed. -/
  go : List α → List α → List (List α) → List (List α)
    | [], [], done => done.reverse
    | [], cur, done => (cur.reverse :: done).reverse
    | x :: xs, cur, done =>
      if p x then go xs [] ((x :: cur).reverse :: done) else go xs (x :: cur) done

/-- A line without its line feed and the carriage return before it; an unfinished line as it is. -/
def dropLineEnd (line : List Char) : List Char :=
  match line.reverse with
  | '\n' :: '\r' :: r => r.reverse
  | '\n' :: r => r.reverse
  | _ => line

/-- The lines of a text. -/
def lines (s : String) : List String :=
  (piecesAfter (· == '\n') s.toList).map fun l => String.ofList (dropLineEnd l)

/-- The words of a text: its longest runs without white space. -/
def words (s : String) : List String :=
  (piecesAfter isBlank s.toList).filterMap fun l =>
    let w := l.filter (!isBlank ·)
    if w.isEmpty then none else some (String.ofList w)

/-- Whether `part` occurs in `whole` as a contiguous run. -/
def occursIn {α : Type} [BEq α] (part : List α) : List α → Bool
  | [] => part.isEmpty
  | x :: xs => part.isPrefixOf (x :: xs) || occursIn part xs

end AgentRelay.Text
