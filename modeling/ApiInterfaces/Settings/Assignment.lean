import ApiInterfaces.Json.Token

/-!
Assignments `key = value` on lines of their own, among comments and empty lines. A value is
`true`, `false` or a text between double quotes, with escapes, or single quotes, without; three
quotes on each side let a text run over several lines.
-/

namespace ApiInterfaces

inductive SettingValue where
  | flag (value : Bool)
  | text (value : String)
deriving DecidableEq, Repr, Inhabited

namespace Assignment

def isSpace (c : Char) : Bool := c = ' ' || c = '\t'

/-- Whether a character may stand in a comment or a text as it is. -/
def isPlain (c : Char) : Bool := c = '\t' || (0x20 ≤ c.toNat && c.toNat ≠ 0x7F)

def skipSpaces (cs : List Char) : List Char := cs.dropWhile isSpace

/-- Line breaks are line feeds; a carriage return counts only as part of one. -/
def unifyBreaks : List Char → List Char
  | '\r' :: '\n' :: rest => '\n' :: unifyBreaks rest
  | c :: rest => c :: unifyBreaks rest
  | [] => []

/-- What follows the line, when nothing but a comment is left of it. -/
def lineEnd? (cs : List Char) : Option (List Char) :=
  let cs := match skipSpaces cs with
    | '#' :: rest => rest.dropWhile isPlain
    | cs => cs
  match cs with
  | [] => some []
  | '\n' :: rest => some rest
  | _ => none

/-- The character with a code written in hexadecimal digits; surrogates have none. -/
def ofCode? (digits : List Char) : Option Char := do
  let n ← Json.Token.hexValue? digits
  if n.isValidChar then some (Char.ofNat n) else none

def ofEscape? : Char → Option Char
  | 'b' => some '\x08'
  | 't' => some '\t'
  | 'n' => some '\n'
  | 'f' => some '\x0c'
  | 'r' => some '\r'
  | '"' => some '"'
  | '\\' => some '\\'
  | _ => none

/-- The character after a backslash and what follows it. -/
def escape? : List Char → Option (Char × List Char)
  | 'u' :: a :: b :: c :: d :: rest => (·, rest) <$> ofCode? [a, b, c, d]
  | 'U' :: a :: b :: c :: d :: e :: f :: g :: h :: rest =>
    (·, rest) <$> ofCode? [a, b, c, d, e, f, g, h]
  | c :: rest => (·, rest) <$> ofEscape? c
  | [] => none

/-- A text up to the closing double quote. -/
def basic? (cs : List Char) : Option (List Char × List Char) :=
  match cs with
  | [] => none
  | '"' :: rest => some ([], rest)
  | '\\' :: rest => do
    let (c, after) ← escape? rest
    if after.length < rest.length then
      let (text, after) ← basic? after
      pure (c :: text, after)
    else none
  | c :: rest =>
    if isPlain c then do
      let (text, rest) ← basic? rest
      pure (c :: text, rest)
    else none
termination_by cs.length

/-- A text up to the closing single quote. -/
def literal? : List Char → Option (List Char × List Char)
  | [] => none
  | '\x27' :: rest => some ([], rest)
  | c :: rest =>
    if isPlain c then do
      let (text, rest) ← literal? rest
      pure (c :: text, rest)
    else none

/-- The end of a text that runs over lines: three quotes, and up to two before them that belong to
the text. -/
def closing? (quote : Char) (cs : List Char) : Option (List Char × List Char) :=
  let n := (cs.takeWhile (· = quote)).length
  if n < 3 then none
  else
    let own := min (n - 3) 2
    some (List.replicate own quote, cs.drop (own + 3))

/-- A backslash at the end of a line takes the break and all blanks after it away. -/
def continuation? (cs : List Char) : Option (List Char) :=
  match skipSpaces cs with
  | '\n' :: rest => some (rest.dropWhile fun c => isSpace c || c = '\n')
  | _ => none

/-- A text over lines up to three double quotes. -/
def multiLineBasic? (cs : List Char) : Option (List Char × List Char) :=
  match closing? '"' cs with
  | some closed => some closed
  | none =>
    match cs with
    | [] => none
    | '\\' :: rest =>
      match continuation? rest with
      | some after => if after.length < rest.length then multiLineBasic? after else none
      | none => do
        let (c, after) ← escape? rest
        if after.length < rest.length then
          let (text, after) ← multiLineBasic? after
          pure (c :: text, after)
        else none
    | c :: rest =>
      if isPlain c || c = '\n' then do
        let (text, rest) ← multiLineBasic? rest
        pure (c :: text, rest)
      else none
termination_by cs.length

/-- A text over lines up to three single quotes. -/
def multiLineLiteral? (cs : List Char) : Option (List Char × List Char) :=
  match closing? '\x27' cs with
  | some closed => some closed
  | none =>
    match cs with
    | [] => none
    | c :: rest =>
      if isPlain c || c = '\n' then do
        let (text, rest) ← multiLineLiteral? rest
        pure (c :: text, rest)
      else none

/-- A break right after the opening quotes is not part of the text. -/
def dropFirstBreak : List Char → List Char
  | '\n' :: rest => rest
  | cs => cs

def value? : List Char → Option (SettingValue × List Char)
  | 't' :: 'r' :: 'u' :: 'e' :: rest => some (.flag true, rest)
  | 'f' :: 'a' :: 'l' :: 's' :: 'e' :: rest => some (.flag false, rest)
  | '"' :: '"' :: '"' :: rest => asText (multiLineBasic? (dropFirstBreak rest))
  | '\x27' :: '\x27' :: '\x27' :: rest => asText (multiLineLiteral? (dropFirstBreak rest))
  | '"' :: rest => asText (basic? rest)
  | '\x27' :: rest => asText (literal? rest)
  | _ => none
where
  asText (read : Option (List Char × List Char)) : Option (SettingValue × List Char) :=
    read.map fun (text, rest) => (.text (String.ofList text), rest)

def isKeyChar (c : Char) : Bool := c.isAlphanum || c = '_' || c = '-'

def key? : List Char → Option (List Char × List Char)
  | '"' :: rest => basic? rest
  | '\x27' :: rest => literal? rest
  | cs =>
    let name := cs.takeWhile isKeyChar
    if name = [] then none else some (name, cs.dropWhile isKeyChar)

/-- One assignment with the rest of its line. -/
def assignment? (cs : List Char) : Option ((String × SettingValue) × List Char) := do
  let (key, rest) ← key? (skipSpaces cs)
  match skipSpaces rest with
  | '=' :: rest =>
    let (value, rest) ← value? (skipSpaces rest)
    let rest ← lineEnd? rest
    pure ((String.ofList key, value), rest)
  | _ => none

/-- The assignments of a text with unified breaks. -/
def all? (cs : List Char) : Option (List (String × SettingValue)) :=
  if cs = [] then some []
  else match lineEnd? cs with
  | some rest => if rest.length < cs.length then all? rest else none
  | none => do
    let (entry, rest) ← assignment? cs
    if rest.length < cs.length then
      let others ← all? rest
      pure (entry :: others)
    else none
termination_by cs.length

/-- The assignments of a text, which may begin with a byte order mark. -/
def ofText? (text : String) : Option (List (String × SettingValue)) :=
  match unifyBreaks text.toList with
  | '\ufeff' :: rest => all? rest
  | cs => all? cs

end Assignment

end ApiInterfaces
