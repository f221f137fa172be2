import ApiInterfaces.Json.Token
import ApiInterfaces.Yaml.Cursor

/-!
The texts of scalars. Plain and quoted scalars may run over lines: a single break between two
parts is folded to a space, and of several all but the first are kept. Block scalars keep or fold
their lines below an indentation, and say what becomes of the breaks at their end.
-/

namespace ApiInterfaces.Yaml

/-! ### Gaps -/

/-- Blanks and breaks between two parts of a scalar: the blanks when there is no break, else the
text of the first break and those of the others. -/
structure Gap where
  blanks : List Char := []
  firstBreak : List Char := []
  otherBreaks : List Char := []
  broken : Bool := false
deriving Repr, Inhabited

namespace Gap

/-- What a gap contributes to the scalar. -/
def text (g : Gap) : List Char :=
  if !g.broken then g.blanks
  else if g.firstBreak = ['\n'] then
    if g.otherBreaks = [] then [' '] else g.otherBreaks
  else g.firstBreak ++ g.otherBreaks

def addBreak (g : Gap) (break_ : List Char) : Gap :=
  if g.broken then { g with otherBreaks := g.otherBreaks ++ break_ }
  else { g with blanks := [], firstBreak := break_, broken := true }

def addBlank (g : Gap) (blank : Char) : Gap :=
  if g.broken then g else { g with blanks := g.blanks ++ [blank] }

end Gap

/-- Reads a gap. After a break no tab may stand before the column `least`. -/
def Cursor.gap? (least : Nat) (g : Gap) (c : Cursor) : Option (Gap × Cursor) :=
  match h : c.break? with
  | some (break_, next) =>
    have := Cursor.length_of_break? h
    next.gap? least (g.addBreak break_)
  | none =>
    match h : c.rest with
    | x :: _ =>
      have := Cursor.length_advance_lt h 0
      if !isBlank x then some (g, c)
      else if g.broken && x = '\t' && c.column < least then none
      else (c.advance 1).gap? least (g.addBlank x)
    | [] => some (g, c)
termination_by c.rest.length

/-- Puts characters in front of a text that has been read. -/
def prepend (front : List Char) : List Char × Cursor → List Char × Cursor
  | (text, c) => (front ++ text, c)

/-! ### Plain scalars -/

/-- A part of a plain scalar without blanks. It ends before `: ` and, in brackets, before a
bracket or comma; there a colon right before one of these is refused. -/
def Cursor.plainPart? (inFlow : Bool) (c : Cursor) : Option (List Char × Cursor) :=
  match h : c.rest with
  | [] => some ([], c)
  | x :: _ =>
    have := Cursor.length_advance_lt h 0
    if isBlank x || isBreak x then some ([], c)
    else if inFlow && x = ':' && (c.at? 1).any (fun y => isFlowIndicator y || y = '?') then none
    else if (x = ':' && c.gapAt 1) || (inFlow && isFlowIndicator x) then some ([], c)
    else prepend [x] <$> (c.advance 1).plainPart? inFlow
termination_by c.rest.length

/-- A plain scalar after the text and the gap read so far, and whether a break follows it. Outside
brackets its lines are indented to the column `least`. -/
def Cursor.plain? (inFlow : Bool) (least : Nat) (text : List Char) (pending : Gap) (c : Cursor) :
    Option (List Char × Bool × Cursor) :=
  if c.atDocumentMark || c.startsWith '#' then some (text, pending.broken, c)
  else do
    let (part, next) ← c.plainPart? inFlow
    let (text, pending) := if part = [] then (text, pending) else (text ++ pending.text ++ part, {})
    if !next.atBlank && !next.atBreak then pure (text, pending.broken, next)
    else do
      let (pending, after) ← next.gap? least pending
      if !inFlow && after.column < least then pure (text, pending.broken, after)
      else if after.rest.length < c.rest.length then
        after.plain? inFlow least text pending
      else none
termination_by c.rest.length

/-! ### Quoted scalars -/

/-- The character that a one-letter escape stands for. -/
def ofEscape? : Char → Option Char
  | '0' => some '\x00'
  | 'a' => some '\x07'
  | 'b' => some '\x08'
  | 't' | '\t' => some '\t'
  | 'n' => some '\n'
  | 'v' => some '\x0b'
  | 'f' => some '\x0c'
  | 'r' => some '\r'
  | 'e' => some '\x1b'
  | ' ' => some ' '
  | '"' => some '"'
  | '/' => some '/'
  | '\\' => some '\\'
  | 'N' => some '\u0085'
  | '_' => some '\u00a0'
  | 'L' => some '\u2028'
  | 'P' => some '\u2029'
  | _ => none

/-- The number of hexadecimal digits after an escape. -/
def escapeWidth? : Char → Option Nat
  | 'x' => some 2
  | 'u' => some 4
  | 'U' => some 8
  | _ => none

/-- The character written by the escape at the cursor, and how long the escape is. -/
def Cursor.escape? (c : Cursor) : Option (Char × Nat) := do
  let letter ← c.at? 1
  match escapeWidth? letter with
  | none => (·, 2) <$> ofEscape? letter
  | some width =>
    let digits := (c.rest.drop 2).take width
    if digits.length < width then none
    let code ← Json.Token.hexValue? digits
    if code.isValidChar then some (Char.ofNat code, width + 2) else none

/-- A quoted scalar up to its closing quote. Between single quotes only the quote itself is
escaped, by doubling. -/
def Cursor.quoted? (quote : Char) (c : Cursor) : Option (List Char × Cursor) :=
  if c.atDocumentMark then none
  else match h : c.rest with
  | [] => none
  | x :: _ =>
    have := Cursor.length_advance_lt h 0
    have := Cursor.length_advance_lt h 1
    if quote = '\x27' && x = quote && c.at? 1 = some quote then
      prepend [quote] <$> (c.advance 2).quoted? quote
    else if x = quote then some ([], c.advance 1)
    else if quote = '"' && x = '\\' then
      match (c.advance 1).break? with
      | some (_, next) => do
        let (gap, after) ← next.gap? 0 { broken := true }
        if after.rest.length < c.rest.length then prepend gap.text <$> after.quoted? quote else none
      | none =>
        match c.escape? with
        | some (y, width + 1) =>
          have := Cursor.length_advance_lt h width
          prepend [y] <$> (c.advance (width + 1)).quoted? quote
        | _ => none
    else if isBlank x || isBreak x then do
      let (gap, after) ← c.gap? 0 {}
      if after.rest.length < c.rest.length then prepend gap.text <$> after.quoted? quote else none
    else prepend [x] <$> (c.advance 1).quoted? quote
termination_by c.rest.length

/-! ### Block scalars -/

/-- What becomes of the breaks at the end of a block scalar. -/
inductive Chomping where
  | strip
  | clip
  | keep
deriving DecidableEq, Repr, Inhabited

def chomping? : Char → Option Chomping
  | '-' => some .strip
  | '+' => some .keep
  | _ => none

/-- Whether a character can give an indentation. -/
def isIndentDigit (c : Char) : Bool := '1' ≤ c && c ≤ '9'

/-- The header after the `|` or `>`: chomping and indentation in either order, each optional. -/
def Cursor.blockHeader (c : Cursor) : Chomping × Option Nat × Cursor :=
  let digit (c : Cursor) : Option Nat × Cursor :=
    match c.at? 0 with
    | some d => if isIndentDigit d then (some (d.toNat - 48), c.advance 1) else (none, c)
    | none => (none, c)
  let sign (c : Cursor) : Option Chomping × Cursor :=
    match (c.at? 0).bind chomping? with
    | some chomping => (some chomping, c.advance 1)
    | none => (none, c)
  match sign c with
  | (some chomping, c) =>
    let (indent, c) := digit c
    (chomping, indent, c)
  | (none, c) =>
    match digit c with
    | (none, c) => (.clip, none, c)
    | (indent, c) =>
      let (chomping, c) := sign c
      (chomping.getD .clip, indent, c)

/-- Past spaces, up to a column if there is a limit. -/
def Cursor.skipIndent (limit : Option Nat) (c : Cursor) : Cursor :=
  let spaces := (c.rest.takeWhile (· = ' ')).length
  match limit with
  | none => c.advance spaces
  | some column => c.advance (min spaces (column - c.column))

/-- Empty lines of a block scalar: their breaks, the widest indentation seen, and the first line
that is not empty. A tab may not stand in the indentation. -/
def Cursor.emptyLines? (limit : Option Nat) (widest : Nat) (c : Cursor) :
    Option (List Char × Nat × Cursor) :=
  let start := c.skipIndent limit
  let widest := max widest start.column
  if start.startsWith '\t' && limit.all (start.column < ·) then none
  else match start.break? with
  | none => some ([], widest, start)
  | some (break_, next) =>
    if next.rest.length < c.rest.length then
      (next.emptyLines? limit widest).map fun (breaks, widest, c) => (break_ ++ breaks, widest, c)
    else none
termination_by c.rest.length

/-- A block scalar in progress: the text so far, the break after its last line, the breaks of the
empty lines after that, and whether the last line began with a blank. -/
structure BlockText where
  text : List Char := []
  lastBreak : List Char := []
  emptyBreaks : List Char := []
  startedBlank : Bool := false
deriving Repr, Inhabited

/-- Ends the last line before the next one. A break between two lines that begin with no blank is
folded. -/
def BlockText.joined (b : BlockText) (folded startsBlank : Bool) : List Char :=
  if folded && b.lastBreak = ['\n'] && !b.startedBlank && !startsBlank then
    b.text ++ (if b.emptyBreaks = [] then [' '] else b.emptyBreaks)
  else b.text ++ b.lastBreak ++ b.emptyBreaks

def BlockText.chomped (b : BlockText) : Chomping → List Char
  | .strip => b.text
  | .clip => b.text ++ b.lastBreak
  | .keep => b.text ++ b.lastBreak ++ b.emptyBreaks

/-- The lines of a block scalar at its indentation. -/
def Cursor.blockLines? (folded : Bool) (indent : Nat) (b : BlockText) (c : Cursor) :
    Option (BlockText × Cursor) :=
  if c.column = indent && c.rest ≠ [] then do
    let line := c.rest.takeWhile fun x => !isBreak x
    let text := b.joined folded c.atBlank ++ line
    let lineEnd := c.advance line.length
    let (lastBreak, next) := lineEnd.break?.getD ([], lineEnd)
    let (emptyBreaks, _, after) ← next.emptyLines? (some indent) 0
    if after.rest.length < c.rest.length then
      after.blockLines? folded indent ⟨text, lastBreak, emptyBreaks, c.atBlank⟩
    else none
  else some (b, c)
termination_by c.rest.length

/-- A block scalar from its `|` or `>` on, inside a collection at the column `outer`, which is
negative outside of any. Without an indentation in the header the first line that is not empty
gives it. -/
def Cursor.block? (folded : Bool) (outer : Int) (c : Cursor) : Option (List Char × Cursor) := do
  let (chomping, given, c) := (c.advance 1).blockHeader
  let lineEnd := (c.skipWhile isBlank).skipComment
  if !lineEnd.gapAt 0 || lineEnd.atBlank then none
  let start := (lineEnd.break?.map Prod.snd).getD lineEnd
  let limit := given.map fun n => (max outer 0).toNat + n
  let (emptyBreaks, widest, start) ← start.emptyLines? limit 0
  let indent := limit.getD (max (max widest (outer + 1).toNat) 1)
  let (b, after) ← start.blockLines? folded indent { emptyBreaks }
  pure (b.chomped chomping, after)

end ApiInterfaces.Yaml
