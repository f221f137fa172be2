import ApiInterfaces.Json.Token
import ApiInterfaces.Yaml.Node
import ApiInterfaces.Yaml.Stream

/-!
The values of nodes. A plain scalar is null, a truth value, a number or a text, as its spelling
says; quoted ones are texts. Aliases stand for the nodes that they name, and a mapping may not
repeat a key.
-/

namespace ApiInterfaces.Yaml

/-- A number with a fraction, or one of the values beyond all numbers. -/
inductive Double where
  | finite (value : Binary64)
  | infinite (negative : Bool)
  | undefined
deriving DecidableEq, Repr, Inhabited

/-- Numerical equality; the undefined value equals itself. -/
def Double.same : Double → Double → Bool
  | .finite x, .finite y => x = y || (x.isZero && y.isZero)
  | x, y => x = y

inductive Value where
  | null
  | bool (value : Bool)
  | integer (value : Int)
  | double (value : Double)
  | text (value : String)
  | sequence (items : List Value)
  | mapping (entries : List (Value × Value))
  /-- A value under a tag of the application's own, named without its `!`. -/
  | tagged (tag : String) (value : Value)
deriving Repr, Inhabited

namespace Value

mutual

/-- Equality of values; the order of the entries of a mapping does not count. -/
def same : Value → Value → Bool
  | .null, .null => true
  | .bool a, .bool b => a = b
  | .integer a, .integer b => a = b
  | .double a, .double b => a.same b
  | .text a, .text b => a = b
  | .sequence as, .sequence bs => sameItems as bs
  | .mapping as, .mapping bs => as.length = bs.length && allIn as bs
  | .tagged t a, .tagged u b => t = u && a.same b
  | _, _ => false

def sameItems : List Value → List Value → Bool
  | [], [] => true
  | a :: as, b :: bs => a.same b && sameItems as bs
  | _, _ => false

/-- Whether every entry is among others. -/
def allIn : List (Value × Value) → List (Value × Value) → Bool
  | [], _ => true
  | (key, value) :: rest, others =>
    (others.any fun entry => key.same entry.1 && value.same entry.2) && allIn rest others

end

/-- Whether no key occurs twice. -/
def distinctKeys : List (Value × Value) → Bool
  | [] => true
  | (key, _) :: rest => !(rest.any fun entry => key.same entry.1) && distinctKeys rest

end Value

/-! ### Scalars -/

def isNull (text : String) : Bool := ["", "null", "Null", "NULL", "~"].contains text

def bool? (text : String) : Option Bool :=
  if ["true", "True", "TRUE"].contains text then some true
  else if ["false", "False", "FALSE"].contains text then some false
  else none

def dropSign : List Char → List Char
  | '+' :: rest => rest
  | '-' :: rest => rest
  | cs => cs

/-- Whether a text has decimal digits only, after a sign or none, but a zero before others. -/
def hasLeadingZero (text : List Char) : Bool :=
  match dropSign text with
  | '0' :: d :: rest => (d :: rest).all Char.isDigit
  | _ => false

/-- The natural number written in digits of a base, at least one. -/
def digits? (base : Nat) (digits : List Char) : Option Nat :=
  if digits = [] then none
  else digits.foldlM (fun n c => do
    let d ← Json.Token.hexDigit? c
    if d < base then some (base * n + d) else none) 0

/-- The base that a mark in front of the digits gives. -/
def base? : List Char → Option (Nat × List Char)
  | '0' :: 'x' :: digits => some (16, digits)
  | '0' :: 'o' :: digits => some (8, digits)
  | '0' :: 'b' :: digits => some (2, digits)
  | _ => none

/-- A natural number after its sign, in decimal or with the mark of another base. -/
def natural? (text : List Char) : Option Nat :=
  match base? text with
  | some (base, digits) => digits? base digits
  | none => if hasLeadingZero text then none else digits? 10 text

/-- What a text says about an integer: that it is one, that it is one beyond the range of values,
or nothing. -/
inductive IntegerText where
  | fits (value : Int)
  | tooLarge
  | none
deriving DecidableEq, Repr

/-- Integers fit 64 bits, signed or not. Larger ones are recognised up to 128 bits. -/
def integerText (text : List Char) : IntegerText :=
  let (negative, unsigned) := match text with
    | '-' :: rest => (true, rest)
    | '+' :: rest => (false, rest)
    | _ => (false, text)
  match natural? unsigned with
  | some n =>
    if negative then
      if n ≤ twoTo 63 then .fits (-(n : Int)) else if n ≤ twoTo 127 then .tooLarge else .none
    else if n < twoTo 64 then .fits n else if n < twoTo 128 then .tooLarge else .none
  | none => .none

/-- Digits before and after a point, of which one may be missing, and an exponent or none. -/
def decimal? (negative : Bool) (text : List Char) : Option Binary64 := do
  let whole := text.takeWhile Char.isDigit
  let rest := text.dropWhile Char.isDigit
  let (fraction, rest) := match rest with
    | '.' :: rest => (rest.takeWhile Char.isDigit, rest.dropWhile Char.isDigit)
    | _ => ([], rest)
  if whole ++ fraction = [] then none
  let exponent ← match rest with
    | [] => some 0
    | e :: rest => if e = 'e' || e = 'E' then Json.Token.exponent? rest else none
  let digits ← digits? 10 (whole ++ fraction)
  Binary64.ofDecimal? negative digits (exponent - fraction.length)

def double? (text : List Char) : Option Double :=
  let unsigned := match text with
    | '+' :: rest => rest
    | _ => text
  if [".inf", ".Inf", ".INF"].contains (String.ofList unsigned) then some (.infinite false)
  else if ["-.inf", "-.Inf", "-.INF"].contains (String.ofList text) then some (.infinite true)
  else if [".nan", ".NaN", ".NAN"].contains (String.ofList text) then some .undefined
  else match text, unsigned with
  | '+' :: _, '-' :: _ => none
  | _, '-' :: rest => .finite <$> decimal? true rest
  | _, _ => .finite <$> decimal? false unsigned

/-- The value that the spelling of a plain scalar stands for, none for an integer too large. -/
def plainValue? (text : String) : Option Value :=
  if isNull text then some .null
  else match bool? text with
  | some b => some (.bool b)
  | none =>
    match integerText text.toList with
    | .fits n => some (.integer n)
    | .tooLarge => none
    | .none =>
      match if hasLeadingZero text.toList then none else double? text.toList with
      | some x => some (.double x)
      | none => some (.text text)

/-- The value of a scalar under a tag that fixes its type. -/
def coreValue? (tag text : String) : Option (Option Value) :=
  if tag = "tag:yaml.org,2002:bool" then some (Value.bool <$> bool? text)
  else if tag = "tag:yaml.org,2002:int" then
    match integerText text.toList with
    | .fits n => some (some (.integer n))
    | _ => some none
  else if tag = "tag:yaml.org,2002:float" then some (Value.double <$> double? text.toList)
  else if tag = "tag:yaml.org,2002:null" then
    some (if text ≠ "" && isNull text then some .null else none)
  else none

def plainOrText? (text : String) (plain : Bool) : Option Value :=
  if plain then plainValue? text else some (.text text)

/-- The value of a scalar. An application's own tag leaves the spelling to decide, any other tag
makes a text. -/
def scalarValue? (tag : Option String) (text : String) (plain : Bool) : Option Value :=
  match tag with
  | none => plainOrText? text plain
  | some tag =>
    match tag.toList with
    | ['!'] => none
    | '!' :: name => Value.tagged (String.ofList name) <$> plainOrText? text plain
    | _ => (coreValue? tag text).getD (some (.text text))

/-! ### Nodes -/

/-- Aliases followed so far, of which there is a limit. -/
abbrev Following := StateT Nat Option

/-- A collection under its tag. -/
def tagged? (tag : Option String) (value : Value) : Option Value :=
  match tag.map String.toList with
  | some ['!'] => none
  | some ('!' :: name) => some (.tagged (String.ofList name) value)
  | _ => some value

/-- The value of a node, given that of the nodes inside it. -/
def valueWith (anchors : Anchors) (limit : Nat) (inside : Option (Node → Following Value))
    (node : Node) : Following Value := fun followed => do
  let (node, followed) ← match node with
    | .alias number =>
      if limit ≤ followed then none
      else (anchors.node? number).map fun target => (target, followed + 1)
    | node => some (node, followed)
  match node with
  | .alias _ => none
  | .scalar tag text plain => (·, followed) <$> scalarValue? tag text plain
  | .sequence tag items => do
    let read ← inside
    let (items, followed) ← (items.mapM read).run followed
    (·, followed) <$> tagged? tag (.sequence items)
  | .mapping tag entries => do
    let read ← inside
    let (entries, followed) ← (entries.mapM fun (key, value) => do
      return (← read key, ← read value)).run followed
    if Value.distinctKeys entries then (·, followed) <$> tagged? tag (.mapping entries) else none

/-- The value of a node in which collections are nested no deeper than `depth`. -/
def Node.value? (anchors : Anchors) (limit : Nat) : Nat → Node → Following Value
  | 0 => valueWith anchors limit none
  | depth + 1 => valueWith anchors limit (some (value? anchors limit depth))

/-- The value of the one document of a text. Collections are nested at most 128 deep, and at most
a hundred aliases are followed for every part of the text. -/
def Value.ofText? (text : String) : Option Value := do
  let (node, anchors) ← document? (← tokens? text)
  let (value, _) ← (node.value? anchors (100 * node.weight) 128).run 0
  pure value

end ApiInterfaces.Yaml
