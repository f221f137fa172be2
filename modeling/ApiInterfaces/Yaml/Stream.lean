import ApiInterfaces.Yaml.Scalar
import ApiInterfaces.Yaml.Token

/-!
From the characters of a stream to its tokens. Indentation opens and closes block collections.
What may turn out to be a key is remembered until a `:` follows it on the same line; the tokens
that make it one are then put in front of it.
-/

namespace ApiInterfaces.Yaml

/-- A node that a `:` would make the key of a mapping. One that begins a line of a block mapping
is required to become a key. -/
structure PossibleKey where
  required : Bool
  /-- The number of tokens before it. -/
  position : Nat
  index : Nat
  line : Nat
  column : Nat
deriving Repr, Inhabited

/-- Reading in progress: the tokens so far, last first, the columns of the open block collections,
innermost first, and for every open bracket and the outermost level what may become a key. -/
structure Stream where
  cursor : Cursor
  tokens : List Token := []
  count : Nat := 0
  indents : List Nat := []
  possible : Option PossibleKey := none
  outer : List (Option PossibleKey) := []
  /-- Whether a key may begin here. -/
  keyAllowed : Bool := true
deriving Repr, Inhabited

namespace Stream

def inFlow (s : Stream) : Bool := !s.outer.isEmpty

/-- The column of the innermost block collection, or `-1`. -/
def indent (s : Stream) : Int :=
  match s.indents with
  | column :: _ => column
  | [] => -1

def emit (s : Stream) (token : Token) : Stream :=
  { s with tokens := token :: s.tokens, count := s.count + 1 }

/-- Puts a token after the first `position` ones. -/
def insert (s : Stream) (position : Nat) (token : Token) : Stream :=
  let (newer, older) := s.tokens.splitAt (s.count - position)
  { s with tokens := newer ++ token :: older, count := s.count + 1 }

/-- Opens a block collection at a column right of the innermost one, in front of the tokens after
the first `position` ones. -/
def openBlock (s : Stream) (column position : Nat) (token : Token) : Stream :=
  if !s.inFlow && s.indent < column then
    { s.insert position token with indents := column :: s.indents }
  else s

/-- Closes block collections, given their columns. -/
def closeEach (column : Int) (s : Stream) : List Nat → Stream
  | [] => { s with indents := [] }
  | indent :: rest =>
    if column < indent then closeEach column (s.emit .blockEnd) rest
    else { s with indents := indent :: rest }

/-- Closes the block collections right of a column. -/
def closeBlocks (s : Stream) (column : Int) : Stream :=
  if s.inFlow then s else closeEach column s s.indents

/-! ### Keys -/

/-- Forgets what may have become a key, which must not be required to. -/
def forgetKey? (s : Stream) : Option Stream :=
  if s.possible.any (·.required) then none else some { s with possible := none }

/-- Remembers that the next token may become a key. -/
def rememberKey? (s : Stream) : Option Stream :=
  if s.keyAllowed then do
    let c := s.cursor
    let required := !s.inFlow && s.indent = c.column
    let s ← s.forgetKey?
    pure { s with possible := some ⟨required, s.count, c.index, c.line, c.column⟩ }
  else some s

/-- Whether a `:` at the cursor comes too late: on a later line or far away. -/
def isStale (c : Cursor) (key : PossibleKey) : Bool :=
  key.line < c.line || key.index + 1024 < c.index

/-- Forgets every key that has become stale. -/
def dropStale? (s : Stream) : Option Stream :=
  let stale := fun key : PossibleKey => isStale s.cursor key
  let keys := (s.possible :: s.outer).filterMap id
  if keys.any fun key => stale key && key.required then none
  else
    let keep := fun key : Option PossibleKey => key.filter fun key => !stale key
    some { s with possible := keep s.possible, outer := s.outer.map keep }

/-! ### Between tokens -/

/-- Past blanks, comments and breaks. A tab is a blank only where no block collection can begin.
A byte order mark may stand at the start of a line. -/
def skipGap (s : Stream) : Stream :=
  let c := s.cursor
  let c := if c.column = 0 && c.startsWith '\ufeff' then c.advance 1 else c
  let tabs := s.inFlow || !s.keyAllowed
  let c := (c.skipWhile fun x => x = ' ' || (tabs && x = '\t')).skipComment
  match c.break? with
  | some (_, next) =>
    if next.rest.length < s.cursor.rest.length then
      skipGap { s with cursor := next, keyAllowed := s.keyAllowed || !s.inFlow }
    else { s with cursor := c }
  | none => { s with cursor := c }
termination_by s.cursor.rest.length

/-! ### Tokens -/

/-- A token of `n` characters. -/
def take (s : Stream) (n : Nat) (token : Token) : Stream :=
  { s.emit token with cursor := s.cursor.advance n }

/-- A directive or a mark between documents ends all that is open. -/
def documentMark? (s : Stream) (token : Token) : Option Stream := do
  let s ← (s.closeBlocks (-1)).forgetKey?
  pure ({ s with keyAllowed := false }.take 3 token)

def directive? (s : Stream) : Option Stream := do
  let s ← (s.closeBlocks (-1)).forgetKey?
  let (token, next) ← s.cursor.directive?
  pure { s.emit token with cursor := next, keyAllowed := false }

/-- An opening bracket, which may itself begin a key. -/
def openFlow? (s : Stream) (token : Token) : Option Stream := do
  let s ← s.rememberKey?
  pure ({ s with outer := s.possible :: s.outer, possible := none, keyAllowed := true }.take 1 token)

def closeFlow? (s : Stream) (token : Token) : Option Stream := do
  let s ← s.forgetKey?
  let s := match s.outer with
    | key :: outer => { s with possible := key, outer }
    | [] => s
  pure ({ s with keyAllowed := false }.take 1 token)

def flowEntry? (s : Stream) : Option Stream := do
  let s ← s.forgetKey?
  pure ({ s with keyAllowed := true }.take 1 .flowEntry)

def blockEntry? (s : Stream) : Option Stream := do
  if !s.inFlow && !s.keyAllowed then none
  let s ← (s.openBlock s.cursor.column s.count .blockSequence).forgetKey?
  pure ({ s with keyAllowed := true }.take 1 .blockEntry)

/-- An explicit key, after `?`. -/
def key? (s : Stream) : Option Stream := do
  if !s.inFlow && !s.keyAllowed then none
  let s ← (s.openBlock s.cursor.column s.count .blockMapping).forgetKey?
  pure ({ s with keyAllowed := !s.inFlow }.take 1 .key)

/-- A value, after `:`. What may become a key does so here. -/
def value? (s : Stream) : Option Stream := do
  match s.possible with
  | some key =>
    let s := (s.insert key.position .key).openBlock key.column key.position .blockMapping
    pure ({ s with possible := none, keyAllowed := false }.take 1 .value)
  | none =>
    if !s.inFlow && !s.keyAllowed then none
    let s := s.openBlock s.cursor.column s.count .blockMapping
    pure ({ s with keyAllowed := !s.inFlow }.take 1 .value)

/-- A token that may begin a key, with the cursor behind it. -/
def content? (s : Stream) (read : Stream → Option (Token × Cursor)) : Option Stream := do
  let s ← s.rememberKey?
  let (token, next) ← read s
  pure { s.emit token with cursor := next, keyAllowed := false }

def blockScalar? (s : Stream) (folded : Bool) : Option Stream := do
  let s ← s.forgetKey?
  let (text, next) ← s.cursor.block? folded s.indent
  pure { s.emit (.scalar text false) with cursor := next, keyAllowed := true }

/-- A plain scalar. If it ends at a break, a key may begin after it. -/
def plainScalar? (s : Stream) : Option Stream := do
  let s ← s.rememberKey?
  let (text, broken, next) ← s.cursor.plain? s.inFlow (s.indent + 1).toNat [] {}
  pure { s.emit (.scalar text true) with cursor := next, keyAllowed := broken }

def quotedScalar? (s : Stream) (quote : Char) : Option Stream :=
  s.content? fun s =>
    ((s.cursor.advance 1).quoted? quote).map fun (text, next) => (.scalar text false, next)

/-- Whether a plain scalar may begin with `x`. Some indicators may when no gap follows them. -/
def startsPlain (s : Stream) (x : Char) : Bool :=
  !(isBlank x || isBreak x || isIndicator x) || (x = '-' && !s.cursor.gapAt 1) ||
    (!s.inFlow && (x = '?' || x = ':') && !s.cursor.gapAt 1)

/-- The token that begins with `x`, the character at the cursor. -/
def token? (s : Stream) (x : Char) : Option Stream :=
  let c := s.cursor
  if c.column = 0 && x = '%' then s.directive?
  else if c.atDocumentMark then
    s.documentMark? (if x = '-' then .documentStart else .documentEnd)
  else match x with
  | '[' => s.openFlow? .flowSequence
  | '{' => s.openFlow? .flowMapping
  | ']' => s.closeFlow? .flowSequenceEnd
  | '}' => s.closeFlow? .flowMappingEnd
  | ',' => s.flowEntry?
  | '*' => s.content? fun s => s.cursor.anchorName?.map fun (name, next) => (.alias name, next)
  | '&' => s.content? fun s => s.cursor.anchorName?.map fun (name, next) => (.anchor name, next)
  | '!' => s.content? fun s => (s.cursor.tag? s.inFlow).map fun (text, next) => (.tag text, next)
  | '\x27' => s.quotedScalar? x
  | '"' => s.quotedScalar? x
  | _ =>
    if x = '-' && c.gapAt 1 then s.blockEntry?
    else if x = '?' && (s.inFlow || c.gapAt 1) then s.key?
    else if x = ':' && (s.inFlow || c.gapAt 1) then s.value?
    else if (x = '|' || x = '>') && !s.inFlow then s.blockScalar? (x = '>')
    else if s.startsPlain x then s.plainScalar?
    else none

/-- The tokens of the whole stream. -/
def run? (s : Stream) : Option (List Token) := do
  let t ← s.skipGap.dropStale?
  let t := t.closeBlocks t.cursor.column
  match t.cursor.rest with
  | [] =>
    let t ← (t.closeBlocks (-1)).forgetKey?
    pure t.tokens.reverse
  | x :: _ => do
    let t ← t.token? x
    if t.cursor.rest.length < s.cursor.rest.length then run? t else none
termination_by s.cursor.rest.length

end Stream

/-- The tokens of a text, none when a character or a construct has no place in it. -/
def tokens? (text : String) : Option (List Token) :=
  let cs := text.toList
  if cs.all isAllowed then Stream.run? { cursor := { rest := cs } } else none

end ApiInterfaces.Yaml
