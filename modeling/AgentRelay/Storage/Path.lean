/-!
# Paths

A path is a text of parts with slashes between them.

* `Path.parts` is what the parts of a path mean to one who follows it.
* `Path.parent?` is the path of the folder that a path lies in.
-/

namespace AgentRelay

/-- What a part of a path means. -/
inductive PathPart
  | name (text : String)
  /-- A dot: the folder that was reached. -/
  | here
  /-- Two dots: the folder around the one that was reached. -/
  | up
  deriving DecidableEq

namespace Path

/-- Cuts a text at every slash. -/
def splitSlash (cs : List Char) : List (List Char) :=
  cs.foldr (fun c parts => if c == '/' then [] :: parts else
    match parts with
    | [] => [[c]]
    | p :: ps => (c :: p) :: ps) [[]]

/-- Texts with slashes between them. -/
def joinSlash (parts : List (List Char)) : List Char := List.intercalate ['/'] parts

/-- What a text between slashes means: nothing when it is empty. -/
def part? : List Char → Option PathPart
  | [] => none
  | ['.'] => some .here
  | ['.', '.'] => some .up
  | text => some (.name (String.ofList text))

/-- The parts of a path. -/
def parts (path : String) : List PathPart := (splitSlash path.toList).filterMap part?

/-- A path that ends in a slash leads to a folder. -/
def endsInSlash (path : String) : Bool := path.toList.getLast? == some '/'

/-- A text between slashes that names no place of its own. -/
def isVoid (text : List Char) : Bool := text.isEmpty || text == ['.']

/-- Without the texts at the end that name no place. -/
def dropVoid (texts : List (List Char)) : List (List Char) :=
  (texts.reverse.dropWhile isVoid).reverse

/-- The path of the folder that a path lies in: empty for a bare name, none for the root and for
the empty path. -/
def parent? (path : String) : Option String :=
  let texts := splitSlash path.toList
  let start := if texts.headD [] == ['.'] || 1 < texts.length && texts.headD [] == [] then 1 else 0
  match dropVoid (texts.drop start) with
  | [] => if texts.headD [] == ['.'] then some "" else none
  | body =>
    let folder := texts.take start ++ dropVoid body.dropLast
    some (String.ofList (if folder == [[]] then ['/'] else joinSlash folder))

/-- A path inside a folder. -/
def join (folder name : String) : String :=
  if name.toList.head? == some '/' then name
  else if folder.isEmpty || folder.toList.getLast? == some '/' then folder ++ name
  else folder ++ "/" ++ name

end Path
end AgentRelay
