import ApiInterfaces.Json.Basic
import ApiInterfaces.Decimal.Shortest

/-!
The compact text of a document: no blanks, members in document order, integers in decimal,
doubles in their shortest form and never without a point or an exponent.
-/

namespace ApiInterfaces

/-- Plain for first digits from `10 ^ -5` to `10 ^ 15`, else with a signed exponent. -/
def Number.layout : DecimalLayout := ⟨-5, 15, "+"⟩

def Number.text : Number → String
  | .integer n => toString n
  | .double x => Number.layout.text x

namespace Json

def hexDigit (n : Nat) : Char := Nat.digitChar n

/-- Only the quote, the backslash and control characters are escaped. -/
def escapeChar (c : Char) : List Char :=
  match c with
  | '"' => ['\\', '"']
  | '\\' => ['\\', '\\']
  | '\x08' => ['\\', 'b']
  | '\x0c' => ['\\', 'f']
  | '\n' => ['\\', 'n']
  | '\r' => ['\\', 'r']
  | '\t' => ['\\', 't']
  | c =>
    if c.toNat < 0x20 then
      ['\\', 'u', '0', '0', hexDigit (c.toNat / 16), hexDigit (c.toNat % 16)]
    else [c]

def quote (s : String) : String :=
  String.ofList ('"' :: s.toList.flatMap escapeChar ++ ['"'])

mutual

def compact : Json → String
  | .null => "null"
  | .bool true => "true"
  | .bool false => "false"
  | .num n => n.text
  | .str s => quote s
  | .arr elements => "[" ++ String.intercalate "," (compactElements elements) ++ "]"
  | .obj members => "\x7b" ++ String.intercalate "," (compactMembers members) ++ "\x7d"

def compactElements : List Json → List String
  | [] => []
  | value :: rest => value.compact :: compactElements rest

def compactMembers : List (String × Json) → List String
  | [] => []
  | (key, value) :: rest => (quote key ++ ":" ++ value.compact) :: compactMembers rest

end

end Json

end ApiInterfaces
