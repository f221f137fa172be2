import ApiInterfaces.Decimal.Shortest
import ApiInterfaces.Text.Pieces
import ApiInterfaces.Yaml.Value

/-!
The block notation of a value. Every item and entry begins a line; a text is written plainly if
it then reads back as the same text, between single quotes if not, over several lines if it has
line breaks, and between double quotes if a character needs an escape.
-/

namespace ApiInterfaces.Yaml

/-- Plain for first digits from `10 ^ -5` to `10 ^ 15`, else with an exponent. -/
def Double.layout : DecimalLayout := ⟨-5, 15, ""⟩

def Double.text : Double → String
  | .finite x => Double.layout.text x
  | .infinite false => ".inf"
  | .infinite true => "-.inf"
  | .undefined => ".nan"

/-! ### Scalars -/

/-- Characters that are written without an escape. -/
def isPrintable (c : Char) : Bool :=
  let n := c.toNat
  c = '\n' || (0x20 ≤ n && n ≤ 0x7E) || (0xA0 ≤ n && n ≤ 0xFFFD && n ≠ 0xFEFF)

inductive Style where
  | plain
  | single
  | double
  | literal
deriving DecidableEq, Repr, Inhabited

/-- Words that have been read as truth values. -/
def truthWords : List String :=
  ["y", "Y", "yes", "Yes", "YES", "n", "N", "no", "No", "NO", "true", "True", "TRUE", "false",
    "False", "FALSE", "on", "On", "ON", "off", "Off", "OFF"]

/-- The style that suits the meaning of a text. -/
def wantedStyle (text : String) : Style :=
  if truthWords.contains text then .single
  else match plainValue? text with
  | some (.text _) | none =>
    if hasLeadingZero text.toList then .single
    else if text.toList.contains '\n' then .literal
    else .plain
  | some _ => .single

/-- Whether two neighbours satisfy `p`. -/
def anyNeighbours (p : Char → Char → Bool) : List Char → Bool
  | a :: b :: rest => p a b || anyNeighbours p (b :: rest)
  | _ => false

def isGap (c : Char) : Bool := isBlank c || isBreak c

/-- Whether a `:` or `#` would end a plain scalar: a colon before a gap, a number sign after one. -/
def holdsIndicator : List Char → Bool
  | a :: b :: rest =>
    (a = ':' && isGap b) || (isGap a && b = '#') || holdsIndicator (b :: rest)
  | [a] => a = ':'
  | [] => false

/-- Whether the first character is an indicator. -/
def beginsIndicator : List Char → Bool
  | c :: rest =>
    if c = '-' || c = '?' || c = ':' then rest.head?.all isGap
    else isIndicator c
  | [] => false

/-- Whether a text can stand without quotes. -/
def plainAllowed (cs : List Char) : Bool :=
  cs ≠ [] && cs.all isPrintable && !cs.any isBreak && cs.head? ≠ some ' ' && cs.getLast? ≠ some ' ' &&
    !beginsIndicator cs && !holdsIndicator cs && cs.take 3 ≠ ['-', '-', '-'] &&
    cs.take 3 ≠ ['.', '.', '.']

def singleAllowed (cs : List Char) : Bool :=
  cs.all isPrintable && !anyNeighbours (fun a b => isBreak a && b = ' ') cs &&
    !anyNeighbours (fun a b => a = ' ' && isBreak b) cs

def literalAllowed (cs : List Char) : Bool :=
  cs.all isPrintable && cs.getLast? ≠ some ' ' && !anyNeighbours (fun a b => a = ' ' && isBreak b) cs

/-- The style in which a text is written. A key stays on one line. -/
def styleOf (asKey : Bool) (text : String) : Style :=
  let cs := text.toList
  let wanted := if asKey && cs.any isBreak then .double else wantedStyle text
  match wanted with
  | .plain => if plainAllowed cs then .plain else if singleAllowed cs then .single else .double
  | .single => if singleAllowed cs then .single else .double
  | .literal => if asKey || !literalAllowed cs then .double else .literal
  | .double => .double

/-- The last `width` hexadecimal digits. -/
def upperHex (width n : Nat) : List Char :=
  let digits := (Nat.toDigits 16 n).map Char.toUpper
  List.replicate (width - digits.length) '0' ++ digits

def escapeChar (c : Char) : List Char :=
  match c with
  | '\x00' => ['\\', '0']
  | '\x07' => ['\\', 'a']
  | '\x08' => ['\\', 'b']
  | '\t' => ['\\', 't']
  | '\n' => ['\\', 'n']
  | '\x0b' => ['\\', 'v']
  | '\x0c' => ['\\', 'f']
  | '\r' => ['\\', 'r']
  | '\x1b' => ['\\', 'e']
  | '"' => ['\\', '"']
  | '\\' => ['\\', '\\']
  | '\u0085' => ['\\', 'N']
  | '\u2028' => ['\\', 'L']
  | '\u2029' => ['\\', 'P']
  | c =>
    if isPrintable c then [c]
    else if c.toNat ≤ 0xFF then '\\' :: 'x' :: upperHex 2 c.toNat
    else if c.toNat ≤ 0xFFFF then '\\' :: 'u' :: upperHex 4 c.toNat
    else '\\' :: 'U' :: upperHex 8 c.toNat

/-- What stands after the `|` of a literal: an indentation if the text begins with a gap, and how
its last break is kept. -/
def literalHeader (cs : List Char) : String :=
  let hint := if cs.head?.any fun c => c = ' ' || isBreak c then "2" else ""
  let chomp := match cs.reverse with
    | [] => "-"
    | last :: before =>
      if !isBreak last then "-"
      else if before.head?.all isBreak then "+" else ""
  "|" ++ hint ++ chomp

def pad (indent : Nat) : String := String.ofList (List.replicate indent ' ')

/-- The lines of a literal below its header. -/
def literalLines (indent : Nat) (cs : List Char) : List String :=
  (Text.feedLines cs).map fun line =>
    if line = [] then "" else pad indent ++ String.ofList line

/-- The lines of a text; those after the first are indented. -/
def textLines (asKey : Bool) (indent : Nat) (text : String) : List String :=
  let cs := text.toList
  match styleOf asKey text with
  | .plain => [text]
  | .single =>
    ["\x27" ++ String.ofList (cs.flatMap fun c => if c = '\x27' then [c, c] else [c]) ++ "\x27"]
  | .double => ["\"" ++ String.ofList (cs.flatMap escapeChar) ++ "\""]
  | .literal => literalHeader cs :: literalLines indent cs

/-! ### Collections -/

/-- Puts a text in front of the first line. -/
def lead (front : String) : List String → List String
  | [] => [front]
  | first :: rest => (front ++ first) :: rest

/-- A tag as it is written, other characters than its own as bytes in hexadecimal. -/
def tagMark (tag : String) : String :=
  "!" ++ String.ofList (tag.toList.flatMap fun c =>
    if Cursor.isTagChar true c && c ≠ '%' then [c]
    else (String.singleton c).toUTF8.toList.flatMap fun byte => '%' :: upperHex 2 byte.toNat)

/-- Whether a value is written on lines of its own. -/
def Value.isBlock : Value → Bool
  | .sequence (_ :: _) => true
  | .mapping (_ :: _) => true
  | .tagged _ value => value.isBlock
  | _ => false

/-- Whether a key stands in front of its colon. Longer ones and those with lines of their own have
a mark. -/
def Value.isSimpleKey : Value → Bool
  | .text s => !s.toList.any isBreak && s.utf8ByteSize ≤ 128
  | .tagged tag (.text s) =>
    !s.toList.any isBreak && tag.utf8ByteSize + 1 + s.utf8ByteSize ≤ 128
  | value => !value.isBlock

/-- The column of a value on lines of its own under the key of a mapping at `indent`. -/
def Value.columnUnder (indent : Nat) : Value → Nat
  | .sequence _ => indent
  | .tagged _ value => value.columnUnder indent
  | _ => indent + 2

/-- The column of a value after the mark of a long key or its value. -/
def Value.columnAfterMark (indent : Nat) : Value → Nat
  | .tagged _ value => value.columnUnder indent
  | _ => indent + 2

def Value.isTagged : Value → Bool
  | .tagged .. => true
  | _ => false

/-- Puts the key of an entry in front of the lines of its value. -/
def underKey (key : String) (indent : Nat) (value : Value) (lines : List String) : List String :=
  if value.isBlock && !value.isTagged then
    (key ++ ":") :: lead (pad (value.columnUnder indent)) lines
  else lead (key ++ ": ") lines

mutual

/-- The lines of a value after a mark on the same line; further lines begin at the column
`indent`. -/
def Value.lines (asKey : Bool) (indent : Nat) : Value → List String
  | .null => ["null"]
  | .bool b => [if b then "true" else "false"]
  | .integer n => [toString n]
  | .double x => [x.text]
  | .text s => textLines asKey indent s
  | .sequence [] => ["[]"]
  | .sequence (item :: rest) =>
    lead "- " (item.lines false (indent + 2)) ++ itemLines indent rest
  | .mapping [] => ["\x7b\x7d"]
  | .mapping ((key, value) :: rest) =>
    (if key.isSimpleKey then
      underKey (String.join (key.lines true indent)) indent value
        (value.lines false (if value.isBlock then value.columnUnder indent else indent + 2))
    else
      lead "? " (key.lines false (key.columnAfterMark indent)) ++
        lead (pad indent ++ ": ") (value.lines false (value.columnAfterMark indent))) ++
      entryLines indent rest
  | .tagged tag value =>
    if value.isBlock then tagMark tag :: lead (pad indent) (value.lines asKey indent)
    else lead (tagMark tag ++ " ") (value.lines asKey indent)

def itemLines (indent : Nat) : List Value → List String
  | [] => []
  | item :: rest =>
    lead (pad indent ++ "- ") (item.lines false (indent + 2)) ++ itemLines indent rest

def entryLines (indent : Nat) : List (Value × Value) → List String
  | [] => []
  | (key, value) :: rest =>
    lead (pad indent) (if key.isSimpleKey then
      underKey (String.join (key.lines true indent)) indent value
        (value.lines false (if value.isBlock then value.columnUnder indent else indent + 2))
    else
      lead "? " (key.lines false (key.columnAfterMark indent)) ++
        lead (pad indent ++ ": ") (value.lines false (value.columnAfterMark indent))) ++
      entryLines indent rest

end

/-- The text of a value in block notation. -/
def Value.blockText (value : Value) : String := String.intercalate "\n" (value.lines false 0)

end ApiInterfaces.Yaml
