import ApiInterfaces.Decimal.Binary64

/-!
The shortest decimal that reads back as a given number. On the grids of 1, 2, … 17 significant
digits the two neighbours of the number are tested, in exact arithmetic, against the interval of
reals that round to it; the first grid with a hit gives the digits, the nearer neighbour winning
and the even one between two.
-/

namespace ApiInterfaces

/-- The positive decimal `digits · 10 ^ exponent`. -/
structure Decimal where
  digits : Nat
  exponent : Int
deriving DecidableEq, Repr, Inhabited

namespace Decimal

/-- Exponent of the first digit. -/
def leadingExponent (d : Decimal) : Int :=
  ((Nat.toDigits 10 d.digits).length : Int) - 1 + d.exponent

end Decimal

namespace Binary64

/-- Number of decimal digits, none for zero. -/
def digitCount (n : Nat) : Nat := if n = 0 then 0 else (Nat.toDigits 10 n).length

/-- The `k` with `10 ^ k ≤ num / den < 10 ^ (k + 1)`, for a positive quotient. -/
def decimalExponent (num den : Nat) : Int :=
  if den ≤ num then (digitCount (num / den) : Int) - 1
  else -(digitCount ((den + num - 1) / num - 1) : Int)

/-- The neighbour of the positive number `x` on the grid of `count` digits that reads back. -/
def neighbourOnGrid? (x : Binary64) (count : Nat) : Option Decimal :=
  let (num, den) := x.quotient
  let p := decimalExponent num den - count + 1
  let (up, down) := if 0 ≤ p then (tenTo p.toNat, 1) else (1, tenTo (-p).toNat)
  -- in quarters of the last place, times `den * down` on one side and `up` on the other
  let value := 4 * num * down
  let unit := 4 * up * den
  let place := down * (if 0 ≤ x.exponent then twoTo x.exponent.toNat else 1)
  let halfBelow :=
    if x.significand = twoTo 52 ∧ leastExponent < x.exponent then place else 2 * place
  let low := value - halfBelow
  let high := value + 2 * place
  let accepts (c : Nat) : Bool :=
    if x.significand % 2 = 0 then low ≤ c * unit && c * unit ≤ high
    else low < c * unit && c * unit < high
  let c := value / unit
  let r := value % unit
  match decide (0 < c) && accepts c, accepts (c + 1) with
  | true, true =>
    if 2 * r < unit then some ⟨c, p⟩
    else if unit < 2 * r then some ⟨c + 1, p⟩
    else some ⟨if c % 2 = 0 then c else c + 1, p⟩
  | true, false => some ⟨c, p⟩
  | false, true => some ⟨c + 1, p⟩
  | false, false => none

/-- The shortest decimal of a nonzero number. -/
def shortest (x : Binary64) : Decimal :=
  match (List.range 17).findSome? fun n => neighbourOnGrid? x (n + 1) with
  | some d => if d.digits % 10 = 0 then ⟨d.digits / 10, d.exponent + 1⟩ else d
  | none => ⟨1, 0⟩

end Binary64

/-- How a number is laid out: without an exponent while that of its first digit lies between the
two bounds, and with which sign in front of a positive exponent otherwise. -/
structure DecimalLayout where
  leastPlain : Int
  greatestPlain : Int
  positiveSign : String

namespace DecimalLayout

/-- The text of a number; one without a fraction keeps `.0` when it is written plainly. -/
def text (layout : DecimalLayout) (x : Binary64) : String :=
  let sign := if x.negative then "-" else ""
  if x.isZero then sign ++ "0.0" else
  let d := x.shortest
  let k := d.leadingExponent
  let digits := Nat.toDigits 10 d.digits
  let body :=
    if layout.leastPlain ≤ k ∧ k ≤ layout.greatestPlain then
      if 0 ≤ d.exponent then digits ++ List.replicate d.exponent.toNat '0' ++ ['.', '0']
      else if 0 ≤ k then digits.take (k.toNat + 1) ++ '.' :: digits.drop (k.toNat + 1)
      else '0' :: '.' :: List.replicate (-k - 1).toNat '0' ++ digits
    else
      let mantissa := match digits with
        | first :: [] => [first]
        | first :: rest => first :: '.' :: rest
        | [] => []
      let power := if k < 0 then "-" ++ Nat.repr (-k).toNat else layout.positiveSign ++ Nat.repr k.toNat
      mantissa ++ 'e' :: power.toList
  sign ++ String.ofList body

end DecimalLayout

end ApiInterfaces
