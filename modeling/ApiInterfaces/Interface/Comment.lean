import ApiInterfaces.Text.Pieces
import ApiInterfaces.Unicode.Blank

/-!
Comments. Every line stands behind ` *`, blanks at its end are dropped, and an end of comment
inside it is broken up, so that only the last line closes the comment.
-/

namespace ApiInterfaces.Comment

/-- Writes `*\/` for `*/`. -/
def breakEnds : List Char → List Char
  | '*' :: '/' :: rest => '*' :: '\\' :: '/' :: breakEnds rest
  | c :: rest => c :: breakEnds rest
  | [] => []

/-- The text of a line in a comment, with the break after it. -/
def line (indent : List Char) (text : List Char) : List Char :=
  match Unicode.trimEnd (breakEnds text) with
  | [] => indent ++ [' ', '*', '\n']
  | shown => indent ++ ' ' :: '*' :: ' ' :: shown ++ ['\n']

/-- A comment of the given lines. -/
def block (opening : String) (indent : List Char) (lines : List (List Char)) : List Char :=
  indent ++ opening.toList ++ '\n' :: lines.flatMap (line indent) ++ indent ++ [' ', '*', '/', '\n']

end ApiInterfaces.Comment
