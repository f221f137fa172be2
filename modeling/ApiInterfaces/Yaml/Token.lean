import ApiInterfaces.Json.Token
import ApiInterfaces.Yaml.Cursor

/-!
The tokens of a YAML stream, and the reading of those that stand in front of a node or a
document: anchors, tags and directives.
-/

namespace ApiInterfaces.Yaml

/-- A tag as written: a handle, which may be empty, and what follows it. -/
structure TagText where
  handle : List Char
  suffix : List Char
deriving DecidableEq, Repr, Inhabited

inductive Token where
  | version (major minor : Nat)
  | tagDirective (handle expansion : List Char)
  | documentStart
  | documentEnd
  | blockSequence
  | blockMapping
  | blockEnd
  | flowSequence
  | flowSequenceEnd
  | flowMapping
  | flowMappingEnd
  | blockEntry
  | flowEntry
  | key
  | value
  | alias (name : List Char)
  | anchor (name : List Char)
  | tag (text : TagText)
  | scalar (text : List Char) (plain : Bool)
deriving DecidableEq, Repr, Inhabited

namespace Cursor

def skipBlanks (c : Cursor) : Cursor := c.skipWhile isBlank

/-- The characters that satisfy `p`, at least one. -/
def run? (p : Char → Bool) (c : Cursor) : Option (List Char × Cursor) :=
  let name := c.rest.takeWhile p
  if name = [] then none else some (name, c.advance name.length)

/-- Characters right after the name of an anchor. -/
def endsAnchor (x : Char) : Bool :=
  isBlank x || isBreak x || x = '?' || x = ':' || x = ',' || x = ']' || x = '}' || x = '%' ||
    x = '@' || x = '\x60'

/-- The name after a `&` or `*`. -/
def anchorName? (c : Cursor) : Option (List Char × Cursor) := do
  let (name, next) ← (c.advance 1).run? isNameChar
  if (next.at? 0).all endsAnchor then pure (name, next) else none

/-! ### Tags -/

/-- Characters of a tag; a verbatim one may also hold commas and brackets. -/
def isTagChar (verbatim : Bool) (x : Char) : Bool :=
  isNameChar x || [';', '/', '?', ':', '@', '&', '=', '+', '$', '.', '%', '!', '~', '*', '\x27',
    '(', ')'].contains x || (verbatim && [',', '[', ']'].contains x)

/-- Reads `%` and two hexadecimal digits as a byte, and all other characters as they are. -/
def percentBytes? : List Char → Option (List UInt8)
  | '%' :: a :: b :: rest => do
    let byte ← Json.Token.hexValue? [a, b]
    (byte.toUInt8 :: ·) <$> percentBytes? rest
  | '%' :: _ => none
  | x :: rest => ((String.singleton x).toUTF8.toList ++ ·) <$> percentBytes? rest
  | [] => some []

/-- The text with its escapes read; the bytes must be UTF-8. -/
def unescapePercent? (text : List Char) : Option (List Char) := do
  let bytes ← percentBytes? text
  String.toList <$> String.fromUTF8? ⟨bytes.toArray⟩

def tagUri? (verbatim : Bool) (c : Cursor) : Option (List Char × Cursor) := do
  let uri := c.rest.takeWhile (isTagChar verbatim)
  let text ← unescapePercent? uri
  pure (text, c.advance uri.length)

/-- A `!`, a name or none, and a further `!` or none. -/
def tagHandle? (c : Cursor) : Option (List Char × Cursor) :=
  match c.rest with
  | '!' :: rest =>
    let name := rest.takeWhile isNameChar
    match rest.drop name.length with
    | '!' :: _ => some ('!' :: name ++ ['!'], c.advance (name.length + 2))
    | _ => some ('!' :: name, c.advance (name.length + 1))
  | _ => none

/-- A tag: verbatim between `!<` and `>`, after a handle between two `!`, or after one `!`. The
lone `!` has no handle. -/
def tagText? (c : Cursor) : Option (TagText × Cursor) :=
  if c.at? 1 = some '<' then do
    let (suffix, next) ← (c.advance 2).tagUri? true
    if suffix ≠ [] && next.startsWith '>' then pure (⟨[], suffix⟩, next.advance 1) else none
  else do
    let (handle, next) ← c.tagHandle?
    let (suffix, next) ← next.tagUri? false
    if 1 < handle.length && handle.getLast? = some '!' then
      if suffix = [] then none else pure (⟨handle, suffix⟩, next)
    else if handle.tail ++ suffix = [] then pure (⟨[], ['!']⟩, next)
    else pure (⟨['!'], handle.tail ++ suffix⟩, next)

/-- A tag must be followed by a gap, or by a comma in brackets. -/
def tag? (inFlow : Bool) (c : Cursor) : Option (TagText × Cursor) := do
  let (text, next) ← c.tagText?
  if next.gapAt 0 || (inFlow && next.startsWith ',') then pure (text, next) else none

/-! ### Directives -/

/-- A number of at most nine digits. -/
def versionNumber? (c : Cursor) : Option (Nat × Cursor) := do
  let (digits, next) ← c.run? Char.isDigit
  if digits.length ≤ 9 then
    pure (digits.foldl (fun n d => 10 * n + (d.toNat - 48)) 0, next)
  else none

def versionDirective? (c : Cursor) : Option (Token × Cursor) := do
  let (major, next) ← c.skipBlanks.versionNumber?
  if next.startsWith '.' then
    let (minor, next) ← (next.advance 1).versionNumber?
    pure (.version major minor, next)
  else none

def tagDirective? (c : Cursor) : Option (Token × Cursor) := do
  let (handle, next) ← c.skipBlanks.tagHandle?
  if handle ≠ ['!'] && handle.getLast? ≠ some '!' then none
  if !next.atBlank then none
  let (expansion, next) ← next.skipBlanks.tagUri? true
  if expansion ≠ [] && next.gapAt 0 then pure (.tagDirective handle expansion, next) else none

/-- The directive after a `%`, with the rest of its line. -/
def directive? (c : Cursor) : Option (Token × Cursor) := do
  let (name, next) ← (c.advance 1).run? isNameChar
  if !next.gapAt 0 then none
  let (token, next) ←
    if name = "YAML".toList then next.versionDirective?
    else if name = "TAG".toList then next.tagDirective?
    else none
  let lineEnd := next.skipBlanks.skipComment
  if lineEnd.rest = [] then pure (token, lineEnd)
  else do
    let (_, next) ← lineEnd.break?
    pure (token, next)

end Cursor

end ApiInterfaces.Yaml
