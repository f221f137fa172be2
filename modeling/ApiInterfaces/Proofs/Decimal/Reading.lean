import ApiInterfaces.Proofs.Decimal.Shortest

/-!
Decimals that are read. A decimal in the interval of a number is read as this number, whatever
its length, and so is the shortest one. Exponents that are not expanded do not matter for that.
-/

namespace ApiInterfaces

namespace Decimal

/-- A decimal lies between the powers of ten that its first digit tells. -/
theorem ten_zpow_le_value {d : Decimal} (h : 0 < d.digits) :
    (10 : ℚ) ^ d.leadingExponent ≤ d.value := by
  have hlength : 0 < (Nat.toDigits 10 d.digits).length := Nat.length_toDigits_pos
  have hpow : (10 : ℚ) ^ ((Nat.toDigits 10 d.digits).length - 1) ≤ d.digits := by
    exact_mod_cast ten_pow_le_of_pos h
  rw [leadingExponent, value, ← Nat.cast_pred hlength, zpow_add₀ (by norm_num), zpow_natCast]
  exact mul_le_mul_of_nonneg_right hpow (zpow_pos (by norm_num) _).le

theorem value_lt_ten_zpow (d : Decimal) : d.value < 10 ^ (d.leadingExponent + 1) := by
  have hpow : (d.digits : ℚ) < 10 ^ (Nat.toDigits 10 d.digits).length := by
    exact_mod_cast lt_ten_pow_length_toDigits d.digits
  have hexponent : d.leadingExponent + 1 = (Nat.toDigits 10 d.digits).length + d.exponent := by
    rw [leadingExponent]
    ring
  rw [hexponent, value, zpow_add₀ (by norm_num), zpow_natCast]
  exact mul_lt_mul_of_pos_right hpow (zpow_pos (by norm_num) _)

end Decimal

namespace Binary64

theorem isNumber_of_ofDecimal? {negative : Bool} {digits : Nat} {exponent : Int} {x : Binary64}
    (h : ofDecimal? negative digits exponent = some x) : x.IsNumber := by
  unfold ofDecimal? at h
  dsimp only at h
  split at h
  next =>
    obtain rfl := Option.some.inj h
    exact isNumber_zero negative
  next =>
    split at h
    next => simp at h
    next =>
      split at h
      next =>
        obtain rfl := Option.some.inj h
        exact isNumber_zero negative
      next =>
        split at h
        next => exact isNumber_of_ofQuotient? Nat.one_pos h
        next => exact isNumber_of_ofQuotient? (tenTo_pos _) h

section

variable {x : Binary64} {q : ℚ}

theorem two_zpow_le_ten_zpow {n : Int} (hn : 0 ≤ n) : (2 : ℚ) ^ (3 * n) ≤ 10 ^ n := by
  rw [zpow_mul]
  exact zpow_le_zpow_left₀ hn (by norm_num) (by norm_num)

/-- The intervals of the numbers end below `10 ^ 399`. -/
theorem Attracts.lt_ten_zpow (hx : x.IsNumber) (h : x.Attracts q) :
    q < 10 ^ (399 : Int) := by
  have hplace : x.place ≤ 2 ^ greatestExponent :=
    zpow_le_zpow_right₀ (by norm_num) hx.le_greatestExponent
  calc
    q < (2 ^ 53 - 1 / 2) * x.place := h.lt_next hx.toIsCanonical
    _ ≤ 2 ^ (53 : Int) * 2 ^ greatestExponent :=
      mul_le_mul (by norm_num) hplace x.place_pos.le (by norm_num)
    _ = 2 ^ (53 + greatestExponent) := (zpow_add₀ (by norm_num) _ _).symm
    _ ≤ 2 ^ (3 * 399 : Int) := zpow_le_zpow_right₀ (by norm_num) (by decide)
    _ ≤ 10 ^ (399 : Int) := two_zpow_le_ten_zpow (by decide)

/-- The intervals of the numbers other than zero begin at `10 ^ -400` or above. -/
theorem Attracts.ten_zpow_le (hx : x.IsNumber) (hpos : 0 < x.significand)
    (h : x.Attracts q) : (10 : ℚ) ^ (-400 : Int) ≤ q := by
  have hplace : (2 : ℚ) ^ leastExponent ≤ x.place :=
    zpow_le_zpow_right₀ (by norm_num) hx.leastExponent_le
  have hone : (1 : ℚ) ≤ x.significand := by exact_mod_cast hpos
  have hreach := x.reach_le
  have hten : (10 : ℚ) ^ (-400 : Int) ≤ 2 ^ (-(3 * 400) : Int) := by
    rw [zpow_neg, zpow_neg]
    exact inv_anti₀ (zpow_pos (by norm_num) _) (two_zpow_le_ten_zpow (by decide))
  calc
    (10 : ℚ) ^ (-400 : Int) ≤ 2 ^ (-(3 * 400) : Int) := hten
    _ ≤ 2 ^ (-1 + leastExponent) := zpow_le_zpow_right₀ (by norm_num) (by decide)
    _ = 2 ^ (-1 : Int) * 2 ^ leastExponent := zpow_add₀ (by norm_num) _ _
    _ ≤ (x.significand - x.reach) * x.place :=
      mul_le_mul (by norm_num; linarith) hplace (zpow_pos (by norm_num) _).le (by linarith)
    _ ≤ q := h.lower

/-- A number is read from every decimal in its interval. -/
theorem Attracts.ofDecimal?_eq {d : Decimal} (hx : x.IsNumber) (hpos : 0 < x.significand)
    (hdigits : 0 < d.digits) (h : x.Attracts d.value) :
    ofDecimal? x.negative d.digits d.exponent = some x := by
  have hnotLarge : ¬ 400 < d.exponent + (Nat.toDigits 10 d.digits).length := by
    intro hlarge
    have hlt : (10 : ℚ) ^ d.leadingExponent < 10 ^ (399 : Int) :=
      lt_of_le_of_lt (Decimal.ten_zpow_le_value hdigits) (h.lt_ten_zpow hx)
    rw [zpow_lt_zpow_iff_right₀ (by norm_num), Decimal.leadingExponent] at hlt
    omega
  have hnotSmall : ¬ d.exponent + (Nat.toDigits 10 d.digits).length < -400 := by
    intro hsmall
    have hlt : (10 : ℚ) ^ (-400 : Int) < 10 ^ (d.leadingExponent + 1) :=
      lt_of_le_of_lt (h.ten_zpow_le hx hpos) d.value_lt_ten_zpow
    rw [zpow_lt_zpow_iff_right₀ (by norm_num), Decimal.leadingExponent] at hlt
    omega
  unfold ofDecimal?
  dsimp only
  rw [if_neg hdigits.ne', if_neg hnotLarge, if_neg hnotSmall]
  rw [Decimal.value] at h
  split
  next he =>
    refine Attracts.ofQuotient?_eq (Nat.mul_pos hdigits (tenTo_pos _)) Nat.one_pos ?_
      hx.toIsCanonical hx.le_greatestExponent
    rwa [Nat.cast_mul, cast_tenTo, ← zpow_natCast, Int.toNat_of_nonneg he, Nat.cast_one, div_one]
  next he =>
    refine Attracts.ofQuotient?_eq hdigits (tenTo_pos _) ?_ hx.toIsCanonical hx.le_greatestExponent
    rwa [cast_tenTo, ← zpow_natCast, Int.toNat_of_nonneg (by omega), zpow_neg, div_inv_eq_mul]

end

/-- Decimals of one value are read alike, so the shortest one may be written with more zeros. -/
theorem ofDecimal?_of_value_eq_shortest {x : Binary64} (hx : x.IsNumber) (hpos : 0 < x.significand)
    {d : Decimal} (h : d.value = x.shortest.value) :
    ofDecimal? x.negative d.digits d.exponent = some x := by
  obtain ⟨hshortest, hattracts⟩ := shortest_spec hx.toIsCanonical hpos
  have hdigits : 0 < d.digits := by
    rcases Nat.eq_zero_or_pos d.digits with hzero | hdigits
    · rw [Decimal.value, hzero, Nat.cast_zero, zero_mul] at h
      have hvalue := Decimal.ten_zpow_le_value hshortest
      rw [← h] at hvalue
      exact absurd hvalue (not_le.mpr (zpow_pos (by norm_num) _))
    · exact hdigits
  exact Attracts.ofDecimal?_eq hx hpos hdigits (h ▸ hattracts)

end Binary64

end ApiInterfaces
