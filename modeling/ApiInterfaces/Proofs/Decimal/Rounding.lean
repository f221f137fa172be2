import ApiInterfaces.Decimal.Binary64
import Mathlib.Algebra.Order.Field.Power
import Mathlib.Data.Rat.Cast.Order
import Mathlib.Tactic.FieldSimp
import Mathlib.Tactic.Linarith
import Mathlib.Tactic.NormNum
import Mathlib.Tactic.Positivity
import Mathlib.Tactic.Ring

/-!
Rounding to the nearest number. Every positive quotient lies in the interval of one number only,
and rounding finds that number.
-/

namespace ApiInterfaces

theorem cast_twoTo (n : Nat) : ((twoTo n : Nat) : ℚ) = 2 ^ n := by
  rw [twoTo, Nat.pow_eq, Nat.cast_pow, Nat.cast_ofNat]

theorem twoTo_pos (n : Nat) : 0 < twoTo n := Nat.two_pow_pos n

namespace Binary64

/-- The form in which numbers are kept: the significand has 53 binary digits, or fewer with the
least exponent. -/
structure IsCanonical (x : Binary64) : Prop where
  significand_lt : x.significand < twoTo 53
  leastExponent_le : leastExponent ≤ x.exponent
  leading : leastExponent < x.exponent → twoTo 52 ≤ x.significand

/-- The absolute value of a number whose significand is one. -/
def place (x : Binary64) : ℚ := 2 ^ x.exponent

/-- How far the interval of a number reaches below it, in places. Where the numbers below have a
smaller exponent, they stand closer. -/
def reach (x : Binary64) : ℚ :=
  if x.significand = twoTo 52 ∧ leastExponent < x.exponent then 1 / 4 else 1 / 2

/-- The quotients that round to a number or to its negative. The ends of the interval go to the
number with the even significand. -/
structure Attracts (x : Binary64) (q : ℚ) : Prop where
  lower : (x.significand - x.reach) * x.place ≤ q
  upper : q ≤ (x.significand + 1 / 2) * x.place
  inside : x.significand % 2 = 1 →
    (x.significand - x.reach) * x.place < q ∧ q < (x.significand + 1 / 2) * x.place

theorem place_pos (x : Binary64) : 0 < x.place := zpow_pos (by norm_num) _

theorem reach_le (x : Binary64) : x.reach ≤ 1 / 2 := by
  unfold reach
  split <;> norm_num

theorem reach_pos (x : Binary64) : 0 < x.reach := by
  unfold reach
  split <;> norm_num

/-! ### The intervals are disjoint -/

section

variable {x y : Binary64} {q : ℚ}

/-- The interval of a number ends below half a place under the numbers of the next exponent. -/
theorem Attracts.lt_next (hx : x.IsCanonical) (h : x.Attracts q) :
    q < (2 ^ 53 - 1 / 2) * x.place := by
  have hplace := x.place_pos
  have hlt : x.significand < 2 ^ 53 := hx.significand_lt
  by_cases hlast : x.significand = 2 ^ 53 - 1
  · have hupper := (h.inside (by rw [hlast]; norm_num)).2
    rw [hlast] at hupper
    push_cast at hupper
    linarith
  · have hcast : (x.significand : ℚ) ≤ 2 ^ 53 - 2 := by
      have hle : x.significand + 2 ≤ 2 ^ 53 := by omega
      have hle' : ((x.significand + 2 : Nat) : ℚ) ≤ ((2 ^ 53 : Nat) : ℚ) := Nat.cast_le.mpr hle
      push_cast at hle'
      linarith
    have hupper := h.upper
    nlinarith

theorem Attracts.next_le (hx : x.IsCanonical) (hleast : leastExponent < x.exponent)
    (h : x.Attracts q) : (2 ^ 52 - 1 / 4) * x.place ≤ q := by
  have hplace := x.place_pos
  have hlower := h.lower
  have hleading : 2 ^ 52 ≤ x.significand := hx.leading hleast
  by_cases hfirst : x.significand = 2 ^ 52
  · have hreach : x.reach = 1 / 4 := if_pos ⟨hfirst, hleast⟩
    rw [hreach, hfirst] at hlower
    push_cast at hlower
    exact hlower
  · have hreach := x.reach_le
    have hcast : (2 ^ 52 + 1 : ℚ) ≤ x.significand := by
      have hle : 2 ^ 52 + 1 ≤ x.significand := by omega
      exact_mod_cast hle
    nlinarith

theorem not_attracts_of_exponent_lt (hx : x.IsCanonical) (hy : y.IsCanonical)
    (h : x.exponent < y.exponent) (hqx : x.Attracts q) : ¬ y.Attracts q := by
  intro hqy
  have hleast : leastExponent < y.exponent := lt_of_le_of_lt hx.leastExponent_le h
  have habove := hqx.lt_next hx
  have hbelow := hqy.next_le hy hleast
  have hplaces : 2 * x.place ≤ y.place := by
    rw [place, place, ← zpow_one_add₀ (by norm_num)]
    exact zpow_le_zpow_right₀ (by norm_num) (by omega)
  nlinarith [x.place_pos]

theorem not_attracts_of_significand_lt (he : x.exponent = y.exponent)
    (h : x.significand < y.significand) (hqx : x.Attracts q) : ¬ y.Attracts q := by
  intro hqy
  have hplace : y.place = x.place := by rw [place, place, he]
  have hpos := x.place_pos
  have hreach := y.reach_le
  have hcast : (x.significand : ℚ) + 1 ≤ y.significand := by exact_mod_cast h
  have hlower : (x.significand + 1 / 2) * x.place ≤ (y.significand - y.reach) * y.place := by
    rw [hplace]
    nlinarith
  -- Only a common end is left, and of two neighbours one has an odd significand.
  rcases Nat.mod_two_eq_zero_or_one x.significand with heven | hodd
  · rcases Nat.mod_two_eq_zero_or_one y.significand with heven' | hodd
    · have hgap : (x.significand : ℚ) + 2 ≤ y.significand := by
        have hle : x.significand + 2 ≤ y.significand := by omega
        exact_mod_cast hle
      have hbelow := hqy.lower
      rw [hplace] at hbelow
      nlinarith [hqx.upper]
    · linarith [hqx.upper, (hqy.inside hodd).1]
  · linarith [hqy.lower, (hqx.inside hodd).2]

/-- A quotient rounds to one number at most. -/
theorem Attracts.unique (hx : x.IsCanonical) (hy : y.IsCanonical) (hqx : x.Attracts q)
    (hqy : y.Attracts q) : x.significand = y.significand ∧ x.exponent = y.exponent := by
  rcases lt_trichotomy x.exponent y.exponent with hlt | he | hgt
  · exact absurd hqy (not_attracts_of_exponent_lt hx hy hlt hqx)
  · rcases lt_trichotomy x.significand y.significand with hlt | hs | hgt
    · exact absurd hqy (not_attracts_of_significand_lt he hlt hqx)
    · exact ⟨hs, he⟩
    · exact absurd hqx (not_attracts_of_significand_lt he.symm hgt hqy)
  · exact absurd hqx (not_attracts_of_exponent_lt hy hx hgt hqy)

end

/-! ### Rounding finds the number -/

/-- Half a unit at most separates a quotient from the natural number nearest to it, and less if
this one is odd. -/
theorem roundQuotient_spec (num : Nat) {den : Nat} (hden : 0 < den) :
    2 * roundQuotient num den * den ≤ 2 * num + den ∧
    2 * num ≤ 2 * roundQuotient num den * den + den ∧
    (roundQuotient num den % 2 = 1 → 2 * roundQuotient num den * den < 2 * num + den ∧
      2 * num < 2 * roundQuotient num den * den + den) := by
  have hdivision := Nat.div_add_mod num den
  have hremainder := Nat.mod_lt num hden
  unfold roundQuotient
  generalize num / den = q at hdivision ⊢
  generalize num % den = r at hdivision hremainder ⊢
  have hq : 2 * num = 2 * q * den + 2 * r := by rw [← hdivision]; ring
  have hnext : 2 * (q + 1) * den = 2 * q * den + 2 * den := by ring
  dsimp only
  split_ifs <;> (try rw [hnext]) <;> omega

theorem roundQuotient_near (num : Nat) {den : Nat} (hden : 0 < den) :
    (roundQuotient num den : ℚ) - 1 / 2 ≤ num / den ∧
    (num : ℚ) / den ≤ roundQuotient num den + 1 / 2 ∧
    (roundQuotient num den % 2 = 1 → (roundQuotient num den : ℚ) - 1 / 2 < num / den ∧
      (num : ℚ) / den < roundQuotient num den + 1 / 2) := by
  have hden' : (0 : ℚ) < den := Nat.cast_pos.mpr hden
  obtain ⟨hlow, hhigh, hinside⟩ := roundQuotient_spec num hden
  generalize roundQuotient num den = s at *
  rw [le_div_iff₀ hden', lt_div_iff₀ hden', div_le_iff₀ hden', div_lt_iff₀ hden']
  have hlow' : (2 * s * den : ℚ) ≤ 2 * num + den := by exact_mod_cast hlow
  have hhigh' : (2 * num : ℚ) ≤ 2 * s * den + den := by exact_mod_cast hhigh
  refine ⟨by linarith, by linarith, fun hodd => ?_⟩
  obtain ⟨hlow, hhigh⟩ := hinside hodd
  have hlow' : (2 * s * den : ℚ) < 2 * num + den := by exact_mod_cast hlow
  have hhigh' : (2 * num : ℚ) < 2 * s * den + den := by exact_mod_cast hhigh
  constructor <;> linarith

theorem scaled_den_pos (num : Nat) {den : Nat} (hden : 0 < den) (e : Int) :
    0 < (scaled num den e).2 := by
  unfold scaled
  split
  · exact Nat.mul_pos hden (twoTo_pos _)
  · exact hden

theorem scaled_eq (num den : Nat) (e : Int) :
    ((scaled num den e).1 : ℚ) / (scaled num den e).2 = num / den / 2 ^ e := by
  unfold scaled
  split
  next he =>
    rw [Nat.cast_mul, cast_twoTo, ← zpow_natCast, Int.toNat_of_nonneg he, div_div]
  next he =>
    rw [Nat.cast_mul, cast_twoTo, ← zpow_natCast, Int.toNat_of_nonneg (by omega), zpow_neg]
    ring

/-- The exponent at which a quotient has 53 binary digits before its point. -/
def fittingExponent (num den : Nat) : Int :=
  let guess : Int := (num.log2 : Int) - (den.log2 : Int) - 52
  if (scaled num den guess).1 < twoTo 52 * (scaled num den guess).2 then guess - 1 else guess

theorem two_zpow_log2_le {n : Nat} (hn : 0 < n) : (2 : ℚ) ^ (n.log2 : ℤ) ≤ n := by
  rw [zpow_natCast]
  exact_mod_cast Nat.log2_self_le hn.ne'

theorem lt_two_zpow_log2 (n : Nat) : (n : ℚ) < 2 ^ ((n.log2 : ℤ) + 1) := by
  have h : n < 2 ^ (n.log2 + 1) := Nat.lt_log2_self
  exact_mod_cast h

theorem scaled_lt_iff (num : Nat) {den : Nat} (hden : 0 < den) (bound : Nat) (e : Int) :
    (scaled num den e).1 < bound * (scaled num den e).2 ↔ (num : ℚ) / den / 2 ^ e < bound := by
  have hpos : (0 : ℚ) < (scaled num den e).2 := Nat.cast_pos.mpr (scaled_den_pos num hden e)
  rw [← scaled_eq, div_lt_iff₀ hpos]
  exact_mod_cast Iff.rfl

/-- The logarithms give the exponent up to one. -/
theorem guess_spec {num den : Nat} (hnum : 0 < num) (hden : 0 < den) :
    (2 : ℚ) ^ 51 < num / den / 2 ^ ((num.log2 : Int) - (den.log2 : Int) - 52) ∧
      (num : ℚ) / den / 2 ^ ((num.log2 : Int) - (den.log2 : Int) - 52) < 2 ^ 53 := by
  have hden' : (0 : ℚ) < den := Nat.cast_pos.mpr hden
  have hscale : (0 : ℚ) < 2 ^ ((num.log2 : Int) - (den.log2 : Int) - 52) := zpow_pos (by norm_num) _
  have hsplit : (2 : ℚ) ^ (num.log2 : ℤ) =
      2 ^ 52 * 2 ^ ((num.log2 : Int) - (den.log2 : Int) - 52) * 2 ^ (den.log2 : ℤ) := by
    rw [← zpow_natCast (2 : ℚ) 52, ← zpow_add₀ (by norm_num), ← zpow_add₀ (by norm_num)]
    congr 1
    push_cast
    ring
  have hnumLow := two_zpow_log2_le hnum
  have hnumHigh := lt_two_zpow_log2 num
  have hdenLow := two_zpow_log2_le hden
  have hdenHigh := lt_two_zpow_log2 den
  rw [zpow_add_one₀ (by norm_num)] at hnumHigh hdenHigh
  rw [hsplit] at hnumLow hnumHigh
  constructor
  · rw [lt_div_iff₀ hscale, lt_div_iff₀ hden']
    nlinarith [mul_lt_mul_of_pos_left hdenHigh hscale]
  · rw [div_lt_iff₀ hscale, div_lt_iff₀ hden']
    nlinarith [mul_le_mul_of_nonneg_left hdenLow hscale.le]

theorem fittingExponent_spec {num den : Nat} (hnum : 0 < num) (hden : 0 < den) :
    (2 : ℚ) ^ 52 ≤ num / den / 2 ^ fittingExponent num den ∧
      (num : ℚ) / den / 2 ^ fittingExponent num den < 2 ^ 53 := by
  obtain ⟨hlow, hhigh⟩ := guess_spec hnum hden
  have hbound : ((twoTo 52 : Nat) : ℚ) = 2 ^ 52 := cast_twoTo 52
  rw [fittingExponent]
  split
  next hsmall =>
    rw [scaled_lt_iff num hden, hbound] at hsmall
    rw [zpow_sub_one₀ (by norm_num), ← div_div, div_inv_eq_mul]
    constructor <;> linarith
  next hlarge =>
    rw [scaled_lt_iff num hden, hbound, not_lt] at hlarge
    exact ⟨hlarge, hhigh⟩

/-- The nearest number, whatever its exponent. -/
def nearest (negative : Bool) (num den : Nat) : Binary64 :=
  let e := max leastExponent (fittingExponent num den)
  let s := roundQuotient (scaled num den e).1 (scaled num den e).2
  if s = twoTo 53 then ⟨negative, twoTo 52, e + 1⟩ else ⟨negative, s, e⟩

theorem ofQuotient?_eq (negative : Bool) {num : Nat} (hnum : num ≠ 0) (den : Nat) :
    ofQuotient? negative num den =
      if (nearest negative num den).exponent ≤ greatestExponent then some (nearest negative num den)
      else none := by
  rw [ofQuotient?, if_neg hnum]
  unfold nearest fittingExponent
  dsimp only
  split_ifs <;> rfl

theorem negative_nearest (negative : Bool) (num den : Nat) :
    (nearest negative num den).negative = negative := by
  unfold nearest
  dsimp only
  split <;> rfl

section

variable {num den : Nat} (hnum : 0 < num) (hden : 0 < den)

include hnum hden

/-- Rounding at the exponent that is used. -/
theorem nearest_spec {e : Int} (he : e = max leastExponent (fittingExponent num den)) {s : Nat}
    (hs : s = roundQuotient (scaled num den e).1 (scaled num den e).2) :
    (s : ℚ) - 1 / 2 ≤ num / den / 2 ^ e ∧ (num : ℚ) / den / 2 ^ e ≤ s + 1 / 2 ∧
    (s % 2 = 1 → (s : ℚ) - 1 / 2 < num / den / 2 ^ e ∧ (num : ℚ) / den / 2 ^ e < s + 1 / 2) ∧
    s ≤ 2 ^ 53 ∧ (leastExponent < e → (2 : ℚ) ^ 52 ≤ num / den / 2 ^ e ∧ 2 ^ 52 ≤ s) := by
  have hnear := roundQuotient_near (scaled num den e).1 (scaled_den_pos num hden e)
  rw [scaled_eq, ← hs] at hnear
  obtain ⟨hlow, hhigh, hinside⟩ := hnear
  obtain ⟨hfitLow, hfitHigh⟩ := fittingExponent_spec hnum hden
  have hpos : (0 : ℚ) ≤ num / den := by positivity
  refine ⟨hlow, hhigh, hinside, ?_, fun hleast => ?_⟩
  · -- A greater exponent only makes the quotient smaller.
    have hscale : (2 : ℚ) ^ fittingExponent num den ≤ 2 ^ e :=
      zpow_le_zpow_right₀ (by norm_num) (he ▸ le_max_right _ _)
    have hlt : (num : ℚ) / den / 2 ^ e < 2 ^ 53 :=
      lt_of_le_of_lt (div_le_div_of_nonneg_left hpos (zpow_pos (by norm_num) _) hscale) hfitHigh
    have hcast : (s : ℚ) < 2 ^ 53 + 1 := by linarith
    exact Nat.lt_succ_iff.mp (by exact_mod_cast hcast)
  · have hfit : e = fittingExponent num den := by
      rw [he] at hleast ⊢
      exact max_eq_right (le_of_lt ((lt_max_iff.mp hleast).resolve_left (lt_irrefl _)))
    rw [hfit] at hhigh ⊢
    have hcast : (2 : ℚ) ^ 52 < s + 1 := by linarith
    exact ⟨hfitLow, Nat.lt_succ_iff.mp (by exact_mod_cast hcast)⟩

theorem isCanonical_nearest (negative : Bool) : (nearest negative num den).IsCanonical := by
  obtain ⟨-, -, -, hle, hleading⟩ := nearest_spec hnum hden rfl rfl
  unfold nearest
  dsimp only
  split
  next =>
    have hleast := le_max_left leastExponent (fittingExponent num den)
    exact ⟨Nat.pow_lt_pow_right (by decide) (by decide), by simp only; omega, fun _ => le_refl _⟩
  next hs => exact ⟨lt_of_le_of_ne hle hs, le_max_left _ _, fun hleast => (hleading hleast).2⟩

theorem attracts_nearest (negative : Bool) : (nearest negative num den).Attracts (num / den) := by
  unfold nearest
  dsimp only
  generalize he : max leastExponent (fittingExponent num den) = e
  generalize hs : roundQuotient (scaled num den e).1 (scaled num den e).2 = s
  obtain ⟨hlow, hhigh, hinside, -, hleading⟩ := nearest_spec hnum hden he.symm hs.symm
  have hplace : (0 : ℚ) < 2 ^ e := zpow_pos (by norm_num) _
  have hleast : leastExponent ≤ e := he ▸ le_max_left _ _
  simp only [le_div_iff₀ hplace, div_le_iff₀ hplace, lt_div_iff₀ hplace, div_lt_iff₀ hplace]
    at hlow hhigh hinside hleading
  split
  next hcarry =>
    -- The exponent goes up, and the number below has the old one.
    have hreach : (⟨negative, twoTo 52, e + 1⟩ : Binary64).reach = 1 / 4 :=
      if_pos ⟨rfl, by simp only; omega⟩
    have hdouble : (⟨negative, twoTo 52, e + 1⟩ : Binary64).place = 2 ^ e * 2 :=
      zpow_add_one₀ (by norm_num) e
    have hs : (s : ℚ) = 2 ^ 53 := by rw [hcarry, cast_twoTo]
    rw [hs] at hlow hhigh
    refine ⟨?_, ?_, fun hodd => absurd hodd (show ¬ twoTo 52 % 2 = 1 by decide)⟩
    · rw [hreach, hdouble, cast_twoTo]
      linarith
    · rw [hdouble, cast_twoTo]
      linarith
  next =>
    by_cases hfirst : s = twoTo 52 ∧ leastExponent < e
    · have hreach : (⟨negative, s, e⟩ : Binary64).reach = 1 / 4 := if_pos hfirst
      refine ⟨?_, hhigh, fun hodd => absurd hodd (hfirst.1 ▸ show ¬ twoTo 52 % 2 = 1 by decide)⟩
      have hexact := (hleading hfirst.2).1
      rw [hreach]
      show ((s : ℚ) - 1 / 4) * 2 ^ e ≤ num / den
      rw [hfirst.1, cast_twoTo]
      linarith
    · have hreach : (⟨negative, s, e⟩ : Binary64).reach = 1 / 2 := if_neg hfirst
      exact ⟨hreach ▸ hlow, hhigh, hreach ▸ hinside⟩

end

theorem eq_of_parts {x y : Binary64} (hnegative : x.negative = y.negative)
    (hsignificand : x.significand = y.significand) (hexponent : x.exponent = y.exponent) :
    x = y := by
  cases x
  cases y
  rw [mk.injEq]
  exact ⟨hnegative, hsignificand, hexponent⟩

/-- Rounding a quotient gives the number that has it in its interval. -/
theorem Attracts.ofQuotient?_eq {x : Binary64} {num den : Nat} (hnum : 0 < num) (hden : 0 < den)
    (h : x.Attracts (num / den)) (hx : x.IsCanonical) (hgreatest : x.exponent ≤ greatestExponent) :
    ofQuotient? x.negative num den = some x := by
  obtain ⟨hsignificand, hexponent⟩ := Attracts.unique (isCanonical_nearest hnum hden x.negative) hx
    (attracts_nearest hnum hden x.negative) h
  have hnearest : nearest x.negative num den = x :=
    eq_of_parts (negative_nearest x.negative num den) hsignificand hexponent
  rw [Binary64.ofQuotient?_eq x.negative hnum.ne', hnearest, if_pos hgreatest]

/-- What rounding gives: a number in the form in which numbers are kept, and not too large. -/
structure IsNumber (x : Binary64) : Prop extends x.IsCanonical where
  le_greatestExponent : x.exponent ≤ greatestExponent

theorem IsCanonical.eq_zero {x : Binary64} (hx : x.IsCanonical) (h : x.significand = 0) :
    x = zero x.negative := by
  have hleast : ¬ leastExponent < x.exponent := by
    intro hlt
    have hle := hx.leading hlt
    rw [h] at hle
    exact absurd (twoTo_pos 52) (not_lt.mpr hle)
  exact eq_of_parts rfl h (le_antisymm (not_lt.mp hleast) hx.leastExponent_le)

theorem isNumber_zero (negative : Bool) : (zero negative).IsNumber where
  significand_lt := twoTo_pos 53
  leastExponent_le := le_refl _
  leading h := absurd h (lt_irrefl _)
  le_greatestExponent := by simp [zero, leastExponent, greatestExponent]

theorem isNumber_of_ofQuotient? {negative : Bool} {num den : Nat} (hden : 0 < den) {x : Binary64}
    (h : ofQuotient? negative num den = some x) : x.IsNumber := by
  rcases Nat.eq_zero_or_pos num with rfl | hnum
  · rw [ofQuotient?, if_pos rfl] at h
    obtain rfl := Option.some.inj h
    exact isNumber_zero negative
  · rw [Binary64.ofQuotient?_eq negative hnum.ne'] at h
    split at h
    next hgreatest =>
      obtain rfl := Option.some.inj h
      exact ⟨isCanonical_nearest hnum hden negative, hgreatest⟩
    next => simp at h

end Binary64

end ApiInterfaces
