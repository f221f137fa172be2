import ApiInterfaces.Text.Pieces

/-!
Paths as texts. Empty parts and `.` do not count, a `.` at the very start apart; `..` is a part
like any other.
-/

namespace ApiInterfaces.Path

/-- The path for `right` seen from `left`: an absolute one stands alone, any other follows after
one `/`. -/
def join (left right : String) : String :=
  if right.startsWith "/" then right
  else if left = "" ∨ left.endsWith "/" then left ++ right
  else left ++ "/" ++ right

/-- Parts that do not count. -/
def isIdle (part : List Char) : Bool := part = [] || part = ['.']

/-- The start of a path that is no part, and the rest: `/`, or a `.` that stands alone or before
`/`. -/
def splitStart : List Char → List Char × List Char
  | '/' :: rest => (['/'], rest)
  | ['.'] => (['.'], [])
  | '.' :: '/' :: rest => (['.'], '/' :: rest)
  | cs => ([], cs)

/-- The parts after the start, last first, from the last one that counts. -/
def partsFromLast (body : List Char) : List (List Char) :=
  (Text.split '/' body).reverse.dropWhile isIdle

/-- Everything before the last part, none for a path without parts. -/
def parent? (path : String) : Option String :=
  let (start, body) := splitStart path.toList
  match partsFromLast body with
  | [] => if start = ['.'] then some "" else none
  | _ :: before =>
    some (String.ofList (start ++ List.intercalate ['/'] (before.dropWhile isIdle).reverse))

/-- The last part, unless it is `..`. -/
def fileName? (path : String) : Option (List Char) :=
  match partsFromLast (splitStart path.toList).2 with
  | name :: _ => if name = ['.', '.'] then none else some name
  | [] => none

/-- What follows the last dot of the file name, if anything stands before it. -/
def extension? (path : String) : Option (List Char) := do
  let name ← fileName? path
  let after := (name.reverse.takeWhile (· ≠ '.')).reverse
  let before := name.length - after.length - 1
  if after.length < name.length ∧ 0 < before then some after else none

end ApiInterfaces.Path
