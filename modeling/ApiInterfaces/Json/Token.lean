import ApiInterfaces.Json.Basic

/-!
The lexemes of a JSON text. Blanks between them are dropped. A word is a maximal run of letters,
digits, signs and points, so that a literal or a number never ends in the middle of one.
-/

namespace ApiInterfaces.Json

inductive Token where
  | openObject
  | closeObject
  | openArray
  | closeArray
  | comma
  | colon
  | scalar (value : Json)
deriving Repr, Inhabited

namespace Token

def isBlank (c : Char) : Bool := c = ' ' || c = '\t' || c = '\n' || c = '\r'

def isWordChar (c : Char) : Bool := c.isAlphanum || c = '+' || c = '-' || c = '.'

def ofPunctuation? : Char → Option Token
  | '{' => some openObject
  | '}' => some closeObject
  | '[' => some openArray
  | ']' => some closeArray
  | ',' => some comma
  | ':' => some colon
  | _ => none

/-! ### Strings -/

/-- The text up to the closing quote, escapes unread, and what follows it. Control characters
must be escaped. -/
def quoted? : List Char → Option (List Char × List Char)
  | [] => none
  | '"' :: rest => some ([], rest)
  | '\\' :: c :: rest => do
    let (body, after) ← quoted? rest
    if c.toNat < 0x20 then none else pure ('\\' :: c :: body, after)
  | c :: rest => do
    let (body, after) ← quoted? rest
    if c.toNat < 0x20 then none else pure (c :: body, after)

theorem length_of_quoted? {cs body rest : List Char} (h : quoted? cs = some (body, rest)) :
    rest.length < cs.length := by
  fun_induction quoted? cs generalizing body rest with
  | case1 => simp at h
  | case2 r => simp at h; simp [h.2]
  | case3 c r ih =>
    simp only [bind, Option.bind_eq_some_iff] at h
    obtain ⟨⟨b, a⟩, hq, ha⟩ := h
    split at ha
    · simp at ha
    · simp only [pure, Option.some.injEq, Prod.mk.injEq] at ha
      have := ih hq
      simp [← ha.2]; omega
  | case4 c r _ _ ih =>
    simp only [bind, Option.bind_eq_some_iff] at h
    obtain ⟨⟨b, a⟩, hq, ha⟩ := h
    split at ha
    · simp at ha
    · simp only [pure, Option.some.injEq, Prod.mk.injEq] at ha
      have := ih hq
      simp [← ha.2]; omega

def hexDigit? (c : Char) : Option Nat :=
  if '0' ≤ c ∧ c ≤ '9' then some (c.toNat - 48)
  else if 'a' ≤ c ∧ c ≤ 'f' then some (c.toNat - 87)
  else if 'A' ≤ c ∧ c ≤ 'F' then some (c.toNat - 55)
  else none

def hexValue? (digits : List Char) : Option Nat :=
  digits.foldlM (fun n c => (16 * n + ·) <$> hexDigit? c) 0

/-- The character that a one-letter escape stands for. -/
def ofEscape? : Char → Option Char
  | '"' => some '"'
  | '\\' => some '\\'
  | '/' => some '/'
  | 'b' => some '\x08'
  | 'f' => some '\x0c'
  | 'n' => some '\n'
  | 'r' => some '\r'
  | 't' => some '\t'
  | _ => none

/-- Reads the escapes of a quoted text. Four hexadecimal digits name a UTF-16 unit; a high
surrogate must be followed by a low one, and no other surrogate may occur. -/
def unescape? : List Char → Option (List Char)
  | [] => some []
  | '\\' :: 'u' :: a :: b :: c :: d :: rest => do
    let unit ← hexValue? [a, b, c, d]
    if 0xDC00 ≤ unit ∧ unit < 0xE000 then none
    else if 0xD800 ≤ unit ∧ unit < 0xDC00 then
      match rest with
      | '\\' :: 'u' :: e :: f :: g :: h :: rest => do
        let low ← hexValue? [e, f, g, h]
        if 0xDC00 ≤ low ∧ low < 0xE000 then
          let code := 0x10000 + (unit - 0xD800) * 0x400 + (low - 0xDC00)
          (Char.ofNat code :: ·) <$> unescape? rest
        else none
      | _ => none
    else (Char.ofNat unit :: ·) <$> unescape? rest
  | '\\' :: c :: rest => do
    let c ← ofEscape? c
    (c :: ·) <$> unescape? rest
  | c :: rest => (c :: ·) <$> unescape? rest

/-! ### Words -/

def digitValue (c : Char) : Nat := c.toNat - 48

/-- Absorbs digits into a significand below `2 ^ 64`; the first one that does not fit ends this.
The digits left over are returned. -/
def absorb : Nat → List Char → Nat × List Char
  | n, [] => (n, [])
  | n, c :: cs =>
    if 10 * n + digitValue c < twoTo 64 then absorb (10 * n + digitValue c) cs else (n, c :: cs)

/-- `x · 10 ^ e` in steps that each round: powers up to `10 ^ 308` at once, smaller ones by
repeated division. -/
def scaleByTen (x : Binary64) (e : Int) : Option Binary64 :=
  if e.natAbs ≤ 308 then do
    let power ← Binary64.ofDecimal? false 1 e.natAbs
    if 0 ≤ e then x.mul? power else x.div? power
  else if x.isZero then some x
  else if 0 ≤ e then none
  else do
    let power ← Binary64.ofDecimal? false 1 308
    scaleByTen (← x.div? power) (e + 308)
termination_by e.natAbs
decreasing_by omega

/-- The number with the given sign, integer digits, fraction digits and exponent. Without a
fraction or an exponent it is an integer if it fits 64 bits, signed or not. -/
def number? (negative : Bool) (whole : List Char) (fraction : Option (List Char))
    (exponent : Option Int) : Option Json :=
  let (n, surplus) := absorb 0 whole
  if fraction.isNone && exponent.isNone && surplus.isEmpty && !negative then
    some (.num (.integer n))
  else if fraction.isNone && exponent.isNone && surplus.isEmpty && 0 < n && n ≤ twoTo 63 then
    some (.num (.integer (-(n : Int))))
  else do
    let digits := fraction.getD []
    let (m, dropped) := absorb n digits
    let e : Int := (surplus.length : Int) - (digits.length - dropped.length : Nat) + exponent.getD 0
    let start ← Binary64.ofQuotient? false m 1
    let x ← scaleByTen start e
    pure (.num (.double { x with negative := negative }))

/-- The exponent of a number: a sign or none, and at least one digit. -/
def exponent? : List Char → Option Int
  | '+' :: digits => positive digits
  | '-' :: digits => (- ·) <$> positive digits
  | digits => positive digits
where
  positive (digits : List Char) : Option Int :=
    if digits ≠ [] ∧ digits.all Char.isDigit then
      some (digits.foldl (fun n c => 10 * n + digitValue c) 0 : Nat)
    else none

/-- The number spelled by a word. The integer part has no leading zero; a fraction and an
exponent have at least one digit. -/
def numberOfWord? (word : List Char) : Option Json := do
  let (negative, word) := match word with
    | '-' :: rest => (true, rest)
    | _ => (false, word)
  let whole := word.takeWhile Char.isDigit
  let rest := word.dropWhile Char.isDigit
  if whole = [] ∨ (whole.head? = some '0' ∧ 1 < whole.length) then none
  let (fraction, rest) ← match rest with
    | '.' :: rest =>
      let digits := rest.takeWhile Char.isDigit
      if digits = [] then none else some (some digits, rest.dropWhile Char.isDigit)
    | _ => some (none, rest)
  match rest with
  | [] => number? negative whole fraction none
  | e :: rest =>
    if e = 'e' ∨ e = 'E' then do number? negative whole fraction (some (← exponent? rest))
    else none

def ofWord? (word : List Char) : Option Json :=
  if word = "null".toList then some .null
  else if word = "true".toList then some (.bool true)
  else if word = "false".toList then some (.bool false)
  else numberOfWord? word

/-- The tokens of a text, none when some part of it is no lexeme. -/
def ofText? : List Char → Option (List Token)
  | [] => some []
  | c :: cs =>
    if isBlank c then ofText? cs
    else match ofPunctuation? c with
    | some token => (token :: ·) <$> ofText? cs
    | none =>
      if c = '"' then
        match h : quoted? cs with
        | some (body, rest) =>
          have : rest.length < cs.length := length_of_quoted? h
          do
            let text ← unescape? body
            (scalar (.str (String.ofList text)) :: ·) <$> ofText? rest
        | none => none
      else if isWordChar c then
        have : (cs.dropWhile isWordChar).length ≤ cs.length := (List.dropWhile_sublist _).length_le
        do
          let value ← ofWord? (c :: cs.takeWhile isWordChar)
          (scalar value :: ·) <$> ofText? (cs.dropWhile isWordChar)
      else none
termination_by cs => cs.length

end Token

end ApiInterfaces.Json
