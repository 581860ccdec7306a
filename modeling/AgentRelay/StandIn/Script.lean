import AgentRelay.Bytes

/-!
# The text of a shell script

The programs that the relay starts as its agent are outside of it. The modules under `StandIn` say
what a few well-known ones do, the shell among them, so that a run can be followed without them.
Nothing of the relay rests on them, and no result speaks of them.

A script is a list of statements, and a statement is made of words. A word is put together from
pieces: texts that stand for themselves, and values that are looked up when its command runs.

* `readWord` reads a word up to a blank or a mark outside quotes.
* `Word.isAssignment` tells the words that set a variable.
* `Word.fields` is what a word stands for: outside quotes a value is cut at its blanks, so that one
  word may stand for several fields, or for none.
* `Action` is what a script may do: run a command, repeat statements, or choose between them.
* `Statements.read` reads a script.
-/

namespace AgentRelay.StandIn

/-! ### Words -/

/-- Names with their values, the latest first. -/
abbrev Variables := List (String × String)

/-- A piece of a word. -/
inductive Piece
  | text (text : String)
  /-- A text that is cut at its blanks. -/
  | cut (text : String)
  /-- The value of a variable, or a default when it is empty. Outside quotes it is cut at its
  blanks. -/
  | value (name default : String) (quoted : Bool)
  /-- What a script writes. Outside quotes it is cut at its blanks. -/
  | result (script : String) (quoted : Bool)
  /-- The sum of numbers and variables. -/
  | sum (terms : List String)
  deriving DecidableEq

/-- The pieces of a word, in order. -/
abbrev Word := List Piece

/-! ### Reading words -/

/-- A character of the name of a variable. -/
def isNameChar (c : Char) : Bool := c.isAlphanum || c == '_'

/-- Space, tab and line feed. -/
def isBlank (c : Char) : Bool := c == ' ' || c == '\t' || c == '\n'

/-- A character that ends a word outside quotes. -/
def isBoundary (c : Char) : Bool := isBlank c || ";&|<>()".toList.contains c

/-- Cuts a sum at its signs; only the characters of names and numbers count. -/
def readTerms (sum : List Char) : List String :=
  ((String.ofList (sum.filter fun c => isNameChar c || c == '+')).splitOn "+")

/-- Cuts a text at the bracket that closes so many open ones. The bracket is in neither part. -/
def readNested : Nat → List Char → List Char × List Char
  | _, [] => ([], [])
  | depth, c :: cs =>
    let before (r : List Char × List Char) : List Char × List Char := (c :: r.1, r.2)
    if c = '(' then before (readNested (depth + 1) cs)
    else if c = ')' then
      match depth with
      | 0 | 1 => ([], cs)
      | depth + 1 => before (readNested depth cs)
    else before (readNested depth cs)

/-- Reads the piece that starts with a dollar sign from the text behind the sign. -/
def readValue (quoted : Bool) : List Char → Piece × List Char
  | '(' :: '(' :: cs =>
    let (sum, rest) := readNested 2 cs
    (.sum (readTerms sum), rest)
  | '(' :: cs =>
    let (script, rest) := readNested 1 cs
    (.result (String.ofList script) quoted, rest)
  | '\x7b' :: cs =>
    let (value, rest) := cs.span (· ≠ '\x7d')
    let parts := (String.ofList value).splitOn ":-"
    (.value (parts.headD "") (":-".intercalate parts.tail) quoted, rest.drop 1)
  | '?' :: cs => (.value "?" "" quoted, cs)
  | '#' :: cs => (.value "#" "" quoted, cs)
  | '$' :: cs => (.value "$" "" quoted, cs)
  | cs =>
    let (name, rest) := cs.span isNameChar
    (if name.isEmpty then .text "$" else .value (String.ofList name) "" quoted, rest)

/-- The character that stands on both sides of a script whose output is a piece. -/
def isBackquote (c : Char) : Bool := c.toNat == 96

/-- A backslash between double quotes stays, unless one of these follows. -/
def isEscapable (c : Char) : Bool := c == '$' || c == '"' || c == '\\' || isBackquote c

/-- Reads a word, at most so many pieces of it. -/
def readWord : Nat → (quoted : Bool) → List Char → Word × List Char
  | 0, _, cs => ([], cs)
  | _ + 1, _, [] => ([], [])
  | n + 1, quoted, c :: cs =>
    let before (p : Piece) (r : Word × List Char) : Word × List Char := (p :: r.1, r.2)
    if c = '"' then before (.text "") (readWord n (!quoted) cs)
    else if c = '$' then
      let (p, rest) := readValue quoted cs
      before p (readWord n quoted rest)
    else if isBackquote c then
      let (script, rest) := cs.span (!isBackquote ·)
      before (.result (String.ofList script) quoted) (readWord n quoted (rest.drop 1))
    else if c = '\\' then
      let stays := quoted && !cs.head?.any isEscapable
      before (.text (String.ofList ((if stays then [c] else []) ++ cs.take 1)))
        (readWord n quoted (cs.drop 1))
    else if !quoted && c = '\'' then
      let (text, rest) := cs.span (· ≠ '\'')
      before (.text (String.ofList text)) (readWord n false (rest.drop 1))
    else if !quoted && isBoundary c then ([], c :: cs)
    else before (.text c.toString) (readWord n quoted cs)

/-- The text of a word that holds no values. -/
def Word.plain? (w : Word) : Option String :=
  w.foldr (fun p rest? => match p, rest? with
    | .text t, some rest => some (t ++ rest)
    | _, _ => none) (some "")

/-- A word that sets a variable. -/
def Word.isAssignment (w : Word) : Bool :=
  let start := w.takeWhile fun
    | .text _ => true
    | _ => false
  let chars := (((Word.plain? start).getD "").toList)
  let name := chars.takeWhile isNameChar
  !name.isEmpty && (chars.drop name.length).head? == some '='

/-- A word that holds a script. -/
def Word.hasResult (w : Word) : Bool :=
  w.any fun
    | .result _ _ => true
    | _ => false

/-- The word as it is between double quotes. -/
def Word.quote (w : Word) : Word :=
  w.map fun
    | .text t | .cut t => .text t
    | .value name default _ => .value name default true
    | .result script _ => .result script true
    | .sum terms => .sum terms

/-! ### What a word stands for -/

/-- The value of a variable: empty when it has none. -/
def Variables.get (vars : Variables) (name : String) : String := (vars.lookup name).getD ""

/-- The number that a term of a sum stands for. -/
def Variables.number (vars : Variables) (term : String) : Nat :=
  ((vars.lookup term).getD term).toNat?.getD 0

/-- The fields of a word so far. -/
structure Fields where
  done : List String := []
  /-- The field that is being put together. -/
  current : Option String := none

namespace Fields

/-- Goes on with the current field. -/
def add (f : Fields) (text : String) : Fields :=
  { f with current := some (f.current.getD "" ++ text) }

/-- Ends the current field. -/
def close (f : Fields) : Fields := ⟨f.done ++ f.current.toList, none⟩

/-- Adds a text that is cut at its blanks. -/
def addCut (f : Fields) (text : String) : Fields :=
  text.toList.foldl (fun f c => if isBlank c then f.close else f.add c.toString) f

/-- Adds what a piece stands for. -/
def addPiece (vars : Variables) (f : Fields) : Piece → Fields
  | .text t => f.add t
  | .cut t => f.addCut t
  | .value name default quoted =>
    let value := vars.get name
    let text := if value.isEmpty then default else value
    if quoted then f.add text else f.addCut text
  | .result _ _ => f
  | .sum terms => f.add (toString (terms.foldl (fun n t => n + vars.number t) 0))

end Fields

/-- The fields that a word stands for, apart from what its scripts write. -/
def Word.fields (vars : Variables) (w : Word) : List String :=
  (w.foldl (Fields.addPiece vars) {}).close.done

/-! ### Statements -/

/-- Where what a command writes goes. -/
inductive Outlet
  | output
  | errors
  | nowhere
  deriving DecidableEq

/-- The condition under which the next statement runs. -/
inductive Link
  | always
  | afterSuccess
  | afterFailure
  /-- The next statement reads what this one writes. -/
  | pipe
  /-- The next statement does not wait for this one. -/
  | background
  deriving DecidableEq

/-- A change to what an action reads and writes. -/
inductive Redirect
  /-- What goes to the source goes where the target goes. -/
  | sends (source target : Outlet)
  /-- There is nothing to read. -/
  | readsNothing
  deriving DecidableEq

/-- What stands behind an action. -/
structure Tail where
  /-- The redirects, in order. -/
  redirects : List Redirect := []
  link : Link := .always
  deriving DecidableEq

/-- What a script may do. -/
inductive Action
  | command (words : List Word)
  /-- Runs statements that stand together. -/
  | group (body : List (Action × Tail))
  /-- Runs statements in a shell of their own. -/
  | inner (body : List (Action × Tail))
  /-- Repeats a body as long as a test succeeds. -/
  | repeat_ (test body : List (Action × Tail))
  /-- Repeats a body for every field of some words. -/
  | each (name : String) (words : List Word) (body : List (Action × Tail))
  | choose (test yes no : List (Action × Tail))

/-- Actions in order. -/
abbrev Statements := List (Action × Tail)

/-! ### Tokens -/

/-- A token of a script. -/
inductive Token
  | word (word : Word)
  | redirect (redirect : Redirect)
  | mark (text : String)
  /-- Starts a shell of its own. -/
  | opening
  /-- Ends it. -/
  | closing
  deriving DecidableEq

/-- Reads a redirect. Files are not kept, so what goes to one goes nowhere. -/
def readRedirect? (cs : List Char) : Option (Token × List Char) :=
  let (number, rest) := cs.span Char.isDigit
  let source := if number = ['2'] then Outlet.errors else .output
  match rest with
  | '>' :: '&' :: c :: rest =>
    let target := if c = '1' then Outlet.output else if c = '2' then .errors else .nowhere
    some (.redirect (.sends source target), rest)
  | '>' :: rest =>
    let file := rest.dropWhile fun c => c = '>' || c = ' '
    some (.redirect (.sends source .nowhere), (readWord (file.length + 1) false file).2)
  | '<' :: rest =>
    let file := rest.dropWhile fun c => c = '<' || c = '&' || c = ' '
    some (.redirect .readsNothing, (readWord (file.length + 1) false file).2)
  | _ => none

/-- The tokens of a text, at most so many. -/
def tokens : Nat → List Char → List Token
  | 0, _ => []
  | _ + 1, [] => []
  | n + 1, c :: cs =>
    if ";&|\n".toList.contains c then
      let more := cs.takeWhile (· = c)
      .mark (String.ofList (c :: more)) :: tokens n (cs.drop more.length)
    else match readRedirect? (c :: cs) with
      | some (t, rest) => t :: tokens n rest
      | none =>
        if c = '(' then .opening :: tokens n cs
        else if c = ')' then .closing :: tokens n cs
        else if isBoundary c then tokens n cs
        else
          let (w, rest) := readWord (cs.length + 2) false (c :: cs)
          .word w :: tokens n rest

namespace Token

/-- The text of a token that is a word without values. -/
def plain? : Token → Option String
  | word w => w.plain?
  | _ => none

/-- A token that ends an action with its redirects. -/
def isEnd : Token → Bool
  | mark _ | closing => true
  | _ => false

/-- The words among tokens. -/
def words (ts : List Token) : List Word :=
  ts.filterMap fun
    | word w => some w
    | _ => none

/-- The redirects among tokens. -/
def redirects (ts : List Token) : List Redirect :=
  ts.filterMap fun
    | redirect r => some r
    | _ => none

end Token

/-! ### Reading statements -/

/-- The condition that the text of a mark sets. -/
def Link.ofMark (text : String) : Link :=
  if text = "&&" then .afterSuccess
  else if text = "||" then .afterFailure
  else if text = "|" then .pipe
  else if text = "&" then .background
  else .always

/-- Reads what stands behind an action, up to the mark behind it. -/
def readTail (ts : List Token) : Tail × List Token :=
  let (own, rest) := ts.span (!·.isEnd)
  match rest with
  | .mark text :: rest => (⟨Token.redirects own, .ofMark text⟩, rest)
  | rest => (⟨Token.redirects own, .always⟩, rest)

/-- The words that end statements inside an action. -/
def isEnding (word : String) : Bool := ["do", "done", "then", "else", "fi", "\x7d"].contains word

/-- Statements, the word that ends them, and the tokens behind it. -/
abbrev Reading := Statements × String × List Token

/-- Reads statements, at most so many on every way through the tokens. -/
def readStatements : Nat → List Token → Reading
  | 0, ts => ([], "", ts)
  | _ + 1, [] => ([], "", [])
  | n + 1, t :: ts =>
    let goOn (action : Action) (ts : List Token) : Reading :=
      let (tail, ts) := readTail ts
      let (rest, ending) := readStatements n ts
      ((action, tail) :: rest, ending)
    if t = .closing then ([], ")", ts)
    else if t.isEnd then readStatements n ts
    else if t = .opening then
      let (body, _, ts) := readStatements n ts
      goOn (.inner body) ts
    else if t.plain? = some "\x7b" then
      let (body, _, ts) := readStatements n ts
      goOn (.group body) ts
    else if t.plain? = some "while" then
      let (test, _, ts) := readStatements n ts
      let (body, _, ts) := readStatements n ts
      goOn (.repeat_ test body) ts
    else if t.plain? = some "for" then
      let (head, ts) := ts.span (!·.isEnd)
      let (_, _, ts) := readStatements n ts
      let (body, _, ts) := readStatements n ts
      goOn (.each ((head.head?.bind Token.plain?).getD "") (Token.words (head.drop 2)) body) ts
    else if t.plain? = some "if" then
      let (test, _, ts) := readStatements n ts
      let (yes, ending, ts) := readStatements n ts
      if ending = "else" then
        let (no, _, ts) := readStatements n ts
        goOn (.choose test yes no) ts
      else goOn (.choose test yes []) ts
    else if t.plain?.any isEnding then ([], t.plain?.getD "", ts)
    else goOn (.command (Token.words ((t :: ts).takeWhile (!·.isEnd)))) (t :: ts)

/-- Reads a script. -/
def Statements.read (script : String) : Statements :=
  let ts := tokens (script.length + 1) script.toList
  (readStatements (2 * ts.length + 1) ts).1

end AgentRelay.StandIn
