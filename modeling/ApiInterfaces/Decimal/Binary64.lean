/-!
Finite binary64 numbers: a sign, a significand below `2 ^ 53` and a power of two. Arithmetic is
exact on quotients of naturals and rounded once, to the nearest number and to the even
significand between two; a result too large for the format is no number.
-/

namespace ApiInterfaces

/-- The natural number `2 ^ n`. -/
def twoTo (n : Nat) : Nat := Nat.pow 2 n

/-- The natural number `10 ^ n`. -/
def tenTo (n : Nat) : Nat := Nat.pow 10 n

/-- The number `± significand · 2 ^ exponent`. Nonzero numbers are kept with `2 ^ 52 ≤ significand`
unless the exponent is the least one, so equal numbers are equal values. -/
structure Binary64 where
  negative : Bool
  significand : Nat
  exponent : Int
deriving DecidableEq, Repr, Inhabited

namespace Binary64

def leastExponent : Int := -1074
def greatestExponent : Int := 971

def zero (negative : Bool) : Binary64 := ⟨negative, 0, leastExponent⟩

def isZero (x : Binary64) : Bool := x.significand == 0

/-- Numerator and denominator of `num / den / 2 ^ e`. -/
def scaled (num den : Nat) (e : Int) : Nat × Nat :=
  if 0 ≤ e then (num, den * twoTo e.toNat) else (num * twoTo (-e).toNat, den)

/-- The natural number nearest to `num / den`; of two, the even one. -/
def roundQuotient (num den : Nat) : Nat :=
  let q := num / den
  let r := num % den
  if 2 * r < den then q
  else if den < 2 * r then q + 1
  else if q % 2 = 0 then q else q + 1

/-- The number nearest to `± num / den`, none when it lies beyond the largest one. -/
def ofQuotient? (negative : Bool) (num den : Nat) : Option Binary64 :=
  if num = 0 then some (zero negative) else
  let guess : Int := (num.log2 : Int) - (den.log2 : Int) - 52
  let (n, d) := scaled num den guess
  let fit := if n < twoTo 52 * d then guess - 1 else guess
  let e := max leastExponent fit
  let (n, d) := scaled num den e
  let s := roundQuotient n d
  let (s, e) := if s = twoTo 53 then (twoTo 52, e + 1) else (s, e)
  if e ≤ greatestExponent then some ⟨negative, s, e⟩ else none

/-- Numerator and denominator of the absolute value. -/
def quotient (x : Binary64) : Nat × Nat :=
  if 0 ≤ x.exponent then (x.significand * twoTo x.exponent.toNat, 1)
  else (x.significand, twoTo (-x.exponent).toNat)

def mul? (x y : Binary64) : Option Binary64 :=
  let (a, b) := x.quotient
  let (c, d) := y.quotient
  ofQuotient? (x.negative != y.negative) (a * c) (b * d)

/-- The quotient of `x` by a nonzero `y`. -/
def div? (x y : Binary64) : Option Binary64 :=
  let (a, b) := x.quotient
  let (c, d) := y.quotient
  ofQuotient? (x.negative != y.negative) (a * d) (b * c)

/-- The number nearest to `± digits · 10 ^ exponent`. Exponents that decide the outcome by their
size alone are not expanded. -/
def ofDecimal? (negative : Bool) (digits : Nat) (exponent : Int) : Option Binary64 :=
  let width : Int := (Nat.toDigits 10 digits).length
  if digits = 0 then some (zero negative)
  else if 400 < exponent + width then none
  else if exponent + width < -400 then some (zero negative)
  else if 0 ≤ exponent then ofQuotient? negative (digits * tenTo exponent.toNat) 1
  else ofQuotient? negative digits (tenTo (-exponent).toNat)

end Binary64

end ApiInterfaces
