/-!
Characters of a YAML stream and places in it. Lines end at a line feed, a carriage return, both
together, a next-line character, or a line or paragraph separator.
-/

namespace ApiInterfaces.Yaml

/-- Whether a character may occur in a stream at all. -/
def isAllowed (c : Char) : Bool :=
  let n := c.toNat
  c = '\t' || c = '\n' || c = '\r' || (0x20 ≤ n && n ≤ 0x7E) || n = 0x85 ||
    (0xA0 ≤ n && n ≤ 0xFFFD) || 0x10000 ≤ n

def isBlank (c : Char) : Bool := c = ' ' || c = '\t'

def isBreak (c : Char) : Bool :=
  c = '\n' || c = '\r' || c = '\u0085' || c = '\u2028' || c = '\u2029'

/-- Characters of anchors, tag handles and directive names. -/
def isNameChar (c : Char) : Bool := c.isAlphanum || c = '_' || c = '-'

/-- Indicators inside collections in brackets. -/
def isFlowIndicator (c : Char) : Bool :=
  c = ',' || c = '[' || c = ']' || c = '{' || c = '}'

/-- Indicators that begin no plain scalar. -/
def isIndicator (c : Char) : Bool :=
  isFlowIndicator c || c = '-' || c = '?' || c = ':' || c = '#' || c = '&' || c = '*' || c = '!' ||
    c = '|' || c = '>' || c = '\x27' || c = '"' || c = '%' || c = '@' || c = '\x60'

/-- A place in a stream: what is left of it, how many characters are before it, and its line and
column. -/
structure Cursor where
  rest : List Char
  index : Nat := 0
  line : Nat := 0
  column : Nat := 0
deriving Repr, Inhabited

namespace Cursor

/-- The character `n` places ahead. -/
def at? (c : Cursor) (n : Nat) : Option Char := c.rest[n]?

def startsWith (c : Cursor) (x : Char) : Bool := c.rest.head? = some x

def atBlank (c : Cursor) : Bool := c.rest.head?.any isBlank

def atBreak (c : Cursor) : Bool := c.rest.head?.any isBreak

/-- Whether a blank, a break or the end is `n` places ahead. -/
def gapAt (c : Cursor) (n : Nat) : Bool := (c.at? n).all fun x => isBlank x || isBreak x

/-- Past `n` characters of the line. -/
def advance (c : Cursor) : Nat → Cursor
  | 0 => c
  | n + 1 =>
    match c.rest with
    | [] => c
    | _ :: rest => advance ⟨rest, c.index + 1, c.line, c.column + 1⟩ n

/-- A break at the cursor: the text that it stands for and the beginning of the next line. The
separators stand for themselves, all other breaks for a line feed. -/
def break? (c : Cursor) : Option (List Char × Cursor) :=
  match c.rest with
  | '\r' :: '\n' :: rest => some (['\n'], ⟨rest, c.index + 2, c.line + 1, 0⟩)
  | x :: rest =>
    if x = '\u2028' || x = '\u2029' then some ([x], ⟨rest, c.index + 1, c.line + 1, 0⟩)
    else if isBreak x then some (['\n'], ⟨rest, c.index + 1, c.line + 1, 0⟩)
    else none
  | [] => none

/-- Past the characters that satisfy `p`. -/
def skipWhile (p : Char → Bool) (c : Cursor) : Cursor := c.advance (c.rest.takeWhile p).length

/-- Whether the line begins with `---` or `...`, alone or before a blank. -/
def atDocumentMark (c : Cursor) : Bool :=
  c.column = 0 && (c.rest.take 3 = ['-', '-', '-'] || c.rest.take 3 = ['.', '.', '.']) && c.gapAt 3

/-- At the end of the line, a comment not counting. -/
def skipComment (c : Cursor) : Cursor :=
  if c.startsWith '#' then c.skipWhile (fun x => !isBreak x) else c

theorem length_advance_le (c : Cursor) (n : Nat) : (c.advance n).rest.length ≤ c.rest.length := by
  induction n generalizing c with
  | zero => simp [advance]
  | succ n ih =>
    unfold advance
    split
    · simp
    · rename_i xs h
      have := ih ⟨xs, c.index + 1, c.line, c.column + 1⟩
      simp only [h, List.length_cons] at this ⊢
      exact Nat.le_succ_of_le this

theorem length_advance_lt {c : Cursor} {x : Char} {xs : List Char} (h : c.rest = x :: xs) (n : Nat) :
    (c.advance (n + 1)).rest.length < c.rest.length := by
  unfold advance
  simp only [h, List.length_cons]
  exact Nat.lt_succ_of_le (length_advance_le ⟨xs, _, _, _⟩ n)

theorem length_of_break? {c d : Cursor} {text : List Char} (h : c.break? = some (text, d)) :
    d.rest.length < c.rest.length := by
  unfold break? at h
  split at h
  · rename_i rest hr
    simp only [Option.some.injEq, Prod.mk.injEq] at h
    rw [hr, ← h.2]
    simp only [List.length_cons]
    omega
  · rename_i x rest _ hr
    split at h
    · simp at h; simp [hr, ← h.2]
    · split at h
      · simp at h; simp [hr, ← h.2]
      · simp at h
  · simp at h

end Cursor

end ApiInterfaces.Yaml
