import ApiInterfaces.Json.Basic
import ApiInterfaces.Text.Pieces

/-!
Pointers into a document: `/`-separated tokens, each a record key with `~1` for `/` and `~0` for
`~`, or the decimal index of a sequence element. The empty pointer is the whole document.
-/

namespace ApiInterfaces.Json

/-- Reads `~1` as `/` and then `~0` as `~`; any other `~` stands for itself. -/
def unescapeToken : List Char → List Char
  | '~' :: '1' :: rest => '/' :: unescapeToken rest
  | '~' :: '0' :: rest => '~' :: unescapeToken rest
  | c :: rest => c :: unescapeToken rest
  | [] => []

/-- An index has no sign and no leading zero. -/
def indexOfToken? (token : List Char) : Option Nat :=
  if token = ['0'] then some 0
  else if token.head? = some '0' then none
  else if token ≠ [] ∧ token.all Char.isDigit then
    some (token.foldl (fun n c => 10 * n + (c.toNat - 48)) 0)
  else none

/-- The child that a token names. -/
def child? (token : String) : Json → Option Json
  | .obj members => Keyed.get? token members
  | .arr elements => (indexOfToken? token.toList).bind (elements[·]?)
  | _ => none

/-- The tokens of a pointer, none when the text is no pointer. -/
def pointerTokens? (pointer : String) : Option (List String) :=
  match pointer.toList with
  | [] => some []
  | '/' :: rest =>
    some ((Text.split '/' rest).map fun t => String.ofList (unescapeToken t))
  | _ => none

/-- The node at the end of a path of tokens. -/
def descend? (document : Json) (tokens : List String) : Option Json :=
  tokens.foldlM (fun node token => node.child? token) document

def pointer? (document : Json) (pointer : String) : Option Json :=
  (pointerTokens? pointer).bind document.descend?

end ApiInterfaces.Json
