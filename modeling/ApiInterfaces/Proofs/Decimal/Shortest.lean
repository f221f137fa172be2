import ApiInterfaces.Decimal.Shortest
import ApiInterfaces.Proofs.Decimal.Digits
import ApiInterfaces.Proofs.Decimal.Rounding

/-!
The shortest decimal of a number rounds to this number. Every decimal that the search accepts
lies in the interval of the number, and on the grid of 17 digits one of the two neighbours does,
since its cells are narrower than the interval.
-/

namespace ApiInterfaces

theorem cast_tenTo (n : Nat) : ((tenTo n : Nat) : ℚ) = 10 ^ n := by
  rw [tenTo, Nat.pow_eq, Nat.cast_pow, Nat.cast_ofNat]

theorem tenTo_pos (n : Nat) : 0 < tenTo n := Nat.pow_pos (by decide)

/-- The quotient that a decimal stands for. -/
def Decimal.value (d : Decimal) : ℚ := d.digits * 10 ^ d.exponent

namespace Binary64

theorem quotient_den_pos (x : Binary64) : 0 < x.quotient.2 := by
  unfold quotient
  split
  · exact Nat.one_pos
  · exact twoTo_pos _

theorem quotient_num_pos {x : Binary64} (hx : 0 < x.significand) : 0 < x.quotient.1 := by
  unfold quotient
  split
  · exact Nat.mul_pos hx (twoTo_pos _)
  · exact hx

theorem quotient_eq (x : Binary64) :
    (x.quotient.1 : ℚ) / x.quotient.2 = x.significand * x.place := by
  unfold quotient place
  split
  next he =>
    rw [Nat.cast_mul, cast_twoTo, ← zpow_natCast, Int.toNat_of_nonneg he, Nat.cast_one, div_one]
  next he =>
    rw [cast_twoTo, ← zpow_natCast, Int.toNat_of_nonneg (by omega), zpow_neg, div_inv_eq_mul]

/-- A place over the denominator of the number. -/
theorem place_numerator (x : Binary64) :
    ((if 0 ≤ x.exponent then twoTo x.exponent.toNat else 1 : Nat) : ℚ) =
      x.place * x.quotient.2 := by
  unfold quotient place
  split
  next he => rw [cast_twoTo, ← zpow_natCast, Int.toNat_of_nonneg he, Nat.cast_one, mul_one]
  next he =>
    rw [cast_twoTo, ← zpow_natCast, Int.toNat_of_nonneg (by omega), ← zpow_add₀ (by norm_num),
      add_neg_cancel, zpow_zero, Nat.cast_one]

theorem lt_ten_pow_digitCount (n : Nat) : n < 10 ^ digitCount n := by
  unfold digitCount
  split
  next hzero => simp [hzero]
  next => exact lt_ten_pow_length_toDigits n

/-- A quotient is not smaller than the unit of its first digit. -/
theorem ten_zpow_decimalExponent_le {num den : Nat} (hnum : 0 < num) (hden : 0 < den) :
    (10 : ℚ) ^ decimalExponent num den ≤ num / den := by
  have hnum' : (0 : ℚ) < num := Nat.cast_pos.mpr hnum
  have hden' : (0 : ℚ) < den := Nat.cast_pos.mpr hden
  unfold decimalExponent
  split
  next hle =>
    have hq : 0 < num / den := Nat.div_pos hle hden
    have hlength : 0 < (Nat.toDigits 10 (num / den)).length := Nat.length_toDigits_pos
    rw [digitCount, if_neg hq.ne', ← Nat.cast_pred hlength, zpow_natCast, le_div_iff₀ hden']
    have hpow := Nat.mul_le_mul_right den (ten_pow_le_of_pos hq)
    exact_mod_cast hpow.trans (Nat.div_mul_le_self num den)
  next hlt =>
    -- The inverse, rounded up, has no more digits than the power that bounds it.
    have hceil : den ≤ (den + num - 1) / num * num := by
      have hdivision := Nat.div_add_mod (den + num - 1) num
      have hremainder := Nat.mod_lt (den + num - 1) hnum
      rw [Nat.mul_comm] at hdivision
      omega
    have hbound := lt_ten_pow_digitCount ((den + num - 1) / num - 1)
    have hle : den ≤ 10 ^ digitCount ((den + num - 1) / num - 1) * num :=
      hceil.trans (Nat.mul_le_mul_right num (by omega))
    have hpow : (0 : ℚ) < 10 ^ digitCount ((den + num - 1) / num - 1) := by positivity
    rw [zpow_neg, zpow_natCast, inv_eq_one_div, div_le_div_iff₀ hpow hden', one_mul, mul_comm]
    exact_mod_cast hle

/-! ### The search -/

section

variable {x : Binary64}

/-- What the search tests in whole numbers: a decimal is accepted if it lies in the interval. -/
theorem accepts_iff (hx : 0 < x.significand) {unit value halfBelow place : Nat} {grid scale : ℚ}
    (hscale : 0 < scale) (hvalue : (value : ℚ) = x.significand * x.place * scale)
    (hunit : (unit : ℚ) = grid * scale) (hplace : (place : ℚ) = x.place / 4 * scale)
    (hhalf : (halfBelow : ℚ) = x.reach * x.place * scale) (c : Nat) :
    (if x.significand % 2 = 0 then
        decide (value - halfBelow ≤ c * unit) && decide (c * unit ≤ value + 2 * place)
      else decide (value - halfBelow < c * unit) && decide (c * unit < value + 2 * place)) = true ↔
      x.Attracts (c * grid) := by
  have hpos := mul_pos x.place_pos hscale
  have hone : (1 : ℚ) ≤ x.significand := by exact_mod_cast hx
  have hcut : halfBelow ≤ value := by
    have hle : (halfBelow : ℚ) ≤ value := by
      rw [hhalf, hvalue]
      nlinarith [x.reach_le]
    exact_mod_cast hle
  have hlow : ((value - halfBelow : Nat) : ℚ) = (x.significand - x.reach) * x.place * scale := by
    rw [Nat.cast_sub hcut, hvalue, hhalf]
    ring
  have hhigh : ((value + 2 * place : Nat) : ℚ) = (x.significand + 1 / 2) * x.place * scale := by
    push_cast
    rw [hvalue, hplace]
    ring
  have hmiddle : ((c * unit : Nat) : ℚ) = c * grid * scale := by
    push_cast
    rw [hunit]
    ring
  have hlower : value - halfBelow ≤ c * unit ↔ (x.significand - x.reach) * x.place ≤ c * grid := by
    rw [← Nat.cast_le (α := ℚ), hlow, hmiddle, mul_le_mul_iff_left₀ hscale]
  have hupper : c * unit ≤ value + 2 * place ↔ c * grid ≤ (x.significand + 1 / 2) * x.place := by
    rw [← Nat.cast_le (α := ℚ), hhigh, hmiddle, mul_le_mul_iff_left₀ hscale]
  have hlower' : value - halfBelow < c * unit ↔ (x.significand - x.reach) * x.place < c * grid := by
    rw [← Nat.cast_lt (α := ℚ), hlow, hmiddle, mul_lt_mul_iff_left₀ hscale]
  have hupper' : c * unit < value + 2 * place ↔ c * grid < (x.significand + 1 / 2) * x.place := by
    rw [← Nat.cast_lt (α := ℚ), hhigh, hmiddle, mul_lt_mul_iff_left₀ hscale]
  split
  next heven =>
    rw [Bool.and_eq_true, decide_eq_true_iff, decide_eq_true_iff, hlower, hupper]
    exact ⟨fun h => ⟨h.1, h.2, fun hodd => by omega⟩, fun h => ⟨h.lower, h.upper⟩⟩
  next hodd =>
    rw [Bool.and_eq_true, decide_eq_true_iff, decide_eq_true_iff, hlower', hupper']
    exact ⟨fun h => ⟨h.1.le, h.2.le, fun _ => h⟩, fun h => h.inside (by omega)⟩

/-- The spacing of the grid that the search tests with a number of digits. -/
def gridExponent (x : Binary64) (count : Nat) : Int :=
  decimalExponent x.quotient.1 x.quotient.2 - count + 1

/-- The spacing of a grid as a quotient of whole numbers. -/
theorem exists_grid (p : Int) :
    ∃ up down, (if 0 ≤ p then (tenTo p.toNat, 1) else (1, tenTo (-p).toNat)) = (up, down) ∧
      0 < down ∧ 0 < up ∧ (up : ℚ) = 10 ^ p * down := by
  by_cases hp : 0 ≤ p
  · refine ⟨_, _, if_pos hp, Nat.one_pos, tenTo_pos _, ?_⟩
    rw [cast_tenTo, ← zpow_natCast, Int.toNat_of_nonneg hp, Nat.cast_one, mul_one]
  · refine ⟨_, _, if_neg hp, tenTo_pos _, Nat.one_pos, ?_⟩
    rw [cast_tenTo, ← zpow_natCast, Int.toNat_of_nonneg (by omega), ← zpow_add₀ (by norm_num),
      add_neg_cancel, zpow_zero, Nat.cast_one]

/-- The choice between two neighbours, of which `lowerFits` and `upperFits` say whether they are
accepted. -/
def choose (lowerFits upperFits : Bool) (c r unit : Nat) (p : Int) : Option Decimal :=
  match decide (0 < c) && lowerFits, upperFits with
  | true, true =>
    if 2 * r < unit then some ⟨c, p⟩
    else if unit < 2 * r then some ⟨c + 1, p⟩
    else some ⟨if c % 2 = 0 then c else c + 1, p⟩
  | true, false => some ⟨c, p⟩
  | false, true => some ⟨c + 1, p⟩
  | false, false => none

theorem choose_eq_some {lowerFits upperFits : Bool} {c r unit : Nat} {p : Int} {d : Decimal}
    (h : choose lowerFits upperFits c r unit p = some d) :
    d = ⟨c, p⟩ ∧ 0 < c ∧ lowerFits = true ∨ d = ⟨c + 1, p⟩ ∧ upperFits = true := by
  unfold choose at h
  by_cases hc : 0 < c
  · cases lowerFits <;> cases upperFits <;> simp [hc] at h ⊢
    · exact h.symm
    · exact h.symm
    · split_ifs at h <;> simp_all
  · cases upperFits <;> simp [hc] at h ⊢
    exact h.symm

theorem choose_eq_none {lowerFits upperFits : Bool} {c r unit : Nat} {p : Int}
    (h : choose lowerFits upperFits c r unit p = none) :
    (0 < c → lowerFits = false) ∧ upperFits = false := by
  unfold choose at h
  by_cases hc : 0 < c
  · cases lowerFits <;> cases upperFits <;> simp [hc] at h ⊢
    split_ifs at h
  · cases upperFits <;> simp [hc] at h ⊢

/-- The neighbours are the quotient of two whole numbers, cut off, and the next one. -/
theorem choose_spec {accepts : Nat → Bool} {p : Int} {value unit : Nat} {scale : ℚ}
    (hpos : 0 < unit) (hscale : 0 < scale) (hvalue : (value : ℚ) = x.significand * x.place * scale)
    (hunit : (unit : ℚ) = 10 ^ p * scale)
    (haccepts : ∀ c : Nat, accepts c = true ↔ x.Attracts (c * 10 ^ p)) :
    ((value / unit : Nat) : ℚ) * 10 ^ p ≤ x.significand * x.place ∧
    x.significand * x.place < (value / unit + 1 : Nat) * 10 ^ p ∧
    (∀ d, choose (accepts (value / unit)) (accepts (value / unit + 1)) (value / unit)
      (value % unit) unit p = some d → 0 < d.digits ∧ x.Attracts d.value) ∧
    (choose (accepts (value / unit)) (accepts (value / unit + 1)) (value / unit)
      (value % unit) unit p = none →
        (0 < value / unit → ¬ x.Attracts ((value / unit : Nat) * 10 ^ p)) ∧
        ¬ x.Attracts ((value / unit + 1 : Nat) * 10 ^ p)) := by
  have hlower := haccepts (value / unit)
  have hupper := haccepts (value / unit + 1)
  refine ⟨?_, ?_, fun d hd => ?_, fun hnone => ?_⟩
  · have hfloor : ((value / unit * unit : Nat) : ℚ) ≤ value :=
      Nat.cast_le.mpr (Nat.div_mul_le_self value unit)
    rw [Nat.cast_mul, hunit, hvalue, ← mul_assoc] at hfloor
    exact le_of_mul_le_mul_right hfloor hscale
  · have hnext : (value : ℚ) < ((unit * (value / unit + 1) : Nat) : ℚ) :=
      Nat.cast_lt.mpr (Nat.lt_mul_div_succ value hpos)
    rw [mul_comm unit, Nat.cast_mul, hunit, hvalue] at hnext
    refine lt_of_mul_lt_mul_right ?_ hscale.le
    rwa [mul_assoc _ ((10 : ℚ) ^ p)]
  · obtain ⟨rfl, hc, hfits⟩ | ⟨rfl, hfits⟩ := choose_eq_some hd
    · exact ⟨hc, hlower.mp hfits⟩
    · exact ⟨Nat.succ_pos _, hupper.mp hfits⟩
  · obtain ⟨hlow, hhigh⟩ := choose_eq_none hnone
    refine ⟨fun hc hattracts => ?_, fun hattracts => ?_⟩
    · exact Bool.false_ne_true ((hlow hc).symm.trans (hlower.mpr hattracts))
    · exact Bool.false_ne_true (hhigh.symm.trans (hupper.mpr hattracts))

/-- On a grid, the search tests the two neighbours of the number. -/
theorem neighbourOnGrid?_spec (hx : 0 < x.significand) (count : Nat) :
    ∃ c : Nat, (c : ℚ) * 10 ^ x.gridExponent count ≤ x.significand * x.place ∧
      x.significand * x.place < (c + 1 : Nat) * 10 ^ x.gridExponent count ∧
      (∀ d, neighbourOnGrid? x count = some d → 0 < d.digits ∧ x.Attracts d.value) ∧
      (neighbourOnGrid? x count = none →
        (0 < c → ¬ x.Attracts (c * 10 ^ x.gridExponent count)) ∧
        ¬ x.Attracts ((c + 1 : Nat) * 10 ^ x.gridExponent count)) := by
  have hquotient := x.quotient_eq
  have hden := x.quotient_den_pos
  have hnumerator := x.place_numerator
  obtain ⟨up, down, hgrid, hdown, hup, hspacing⟩ := exists_grid (x.gridExponent count)
  unfold neighbourOnGrid?
  unfold gridExponent at hgrid hspacing ⊢
  generalize x.quotient = quotient at hquotient hden hnumerator hgrid hspacing ⊢
  obtain ⟨num, den⟩ := quotient
  dsimp only at hquotient hden hnumerator hgrid hspacing ⊢
  generalize decimalExponent num den - count + 1 = p at hgrid hspacing ⊢
  rw [hgrid]
  dsimp only
  have hden' : (0 : ℚ) < den := Nat.cast_pos.mpr hden
  have hdown' : (0 : ℚ) < down := Nat.cast_pos.mpr hdown
  have hscale : (0 : ℚ) < 4 * den * down := by positivity
  have hvalue : ((4 * num * down : Nat) : ℚ) = x.significand * x.place * (4 * den * down) := by
    rw [← hquotient]
    push_cast
    field_simp
  have hunit : ((4 * up * den : Nat) : ℚ) = 10 ^ p * (4 * den * down) := by
    push_cast
    rw [hspacing]
    ring
  have hplace : ((down * if 0 ≤ x.exponent then twoTo x.exponent.toNat else 1 : Nat) : ℚ) =
      x.place / 4 * (4 * den * down) := by
    rw [Nat.cast_mul, hnumerator]
    ring
  generalize (down * if 0 ≤ x.exponent then twoTo x.exponent.toNat else 1) = place at hplace ⊢
  have hhalf : ((if x.significand = twoTo 52 ∧ leastExponent < x.exponent then place
      else 2 * place : Nat) : ℚ) = x.reach * x.place * (4 * den * down) := by
    unfold reach
    split
    · rw [hplace]
      ring
    · push_cast
      rw [hplace]
      ring
  have haccepts := accepts_iff hx hscale hvalue hunit hplace hhalf
  exact ⟨4 * num * down / (4 * up * den),
    choose_spec (by positivity) hscale hvalue hunit haccepts⟩

theorem attracts_of_lt {q : ℚ} (hlow : (x.significand - x.reach) * x.place < q)
    (hhigh : q < (x.significand + 1 / 2) * x.place) : x.Attracts q :=
  ⟨hlow.le, hhigh.le, fun _ => ⟨hlow, hhigh⟩⟩

/-- Numbers of 53 binary digits are farther apart than those of 17 decimal digits, so the grid of
17 digits has a decimal to offer. -/
theorem exists_neighbourOnGrid? (hcanonical : x.IsCanonical) (hx : 0 < x.significand) :
    ∃ d, neighbourOnGrid? x 17 = some d := by
  rw [← Option.ne_none_iff_exists']
  intro hnone
  obtain ⟨c, hbelow, habove, -, hrefused⟩ := neighbourOnGrid?_spec hx 17
  obtain ⟨hlow, hhigh⟩ := hrefused hnone
  have hplace := x.place_pos
  have hsize : x.significand * x.place < 2 ^ 53 * x.place := by
    refine mul_lt_mul_of_pos_right ?_ hplace
    rw [← cast_twoTo]
    exact Nat.cast_lt.mpr hcanonical.significand_lt
  have hcell : 10 ^ 16 * (10 : ℚ) ^ x.gridExponent 17 ≤ x.significand * x.place := by
    rw [← quotient_eq, ← zpow_natCast, ← zpow_add₀ (by norm_num)]
    refine le_of_eq_of_le ?_ (ten_zpow_decimalExponent_le (quotient_num_pos hx) x.quotient_den_pos)
    congr 1
    rw [gridExponent]
    push_cast
    ring
  have hg : (0 : ℚ) < 10 ^ x.gridExponent 17 := zpow_pos (by norm_num) _
  push_cast at habove hhigh
  generalize (10 : ℚ) ^ x.gridExponent 17 = g at *
  have hc : 0 < c := by
    rcases Nat.eq_zero_or_pos c with rfl | hc
    · rw [Nat.cast_zero] at habove
      linarith
    · exact hc
  by_cases hfirst : x.significand = twoTo 52
  · -- Below the number the interval may be too short, above it is not.
    have hreach := x.reach_pos
    rw [hfirst, cast_twoTo] at hbelow habove hcell
    refine hhigh (attracts_of_lt ?_ ?_) <;> rw [hfirst, cast_twoTo]
    · nlinarith
    · linarith
  · have hreach : x.reach = 1 / 2 := if_neg fun h => hfirst h.1
    rcases le_or_gt (2 * (x.significand * x.place - c * g)) g with hnear | hnear
    · refine hlow hc (attracts_of_lt ?_ ?_)
      · rw [hreach]
        linarith
      · linarith
    · refine hhigh (attracts_of_lt ?_ ?_)
      · rw [hreach]
        linarith
      · linarith

end

/-! ### The shortest decimal -/

/-- The shortest decimal of a number rounds to this number. -/
theorem shortest_spec {x : Binary64} (hcanonical : x.IsCanonical) (hx : 0 < x.significand) :
    0 < x.shortest.digits ∧ x.Attracts x.shortest.value := by
  obtain ⟨last, hlast⟩ := exists_neighbourOnGrid? hcanonical hx
  have hsome : ((List.range 17).findSome? fun n => neighbourOnGrid? x (n + 1)).isSome = true := by
    rw [List.isSome_findSome?, List.any_eq_true]
    exact ⟨16, by simp, by simp [hlast]⟩
  obtain ⟨d, hd⟩ := Option.isSome_iff_exists.mp hsome
  obtain ⟨n, -, hn⟩ := List.exists_of_findSome?_eq_some hd
  obtain ⟨-, -, -, hspec, -⟩ := neighbourOnGrid?_spec hx (n + 1)
  obtain ⟨hpos, hattracts⟩ := hspec d hn
  rw [shortest, hd]
  dsimp only
  split
  next htrailing =>
    -- A zero at the end may be written in the exponent.
    have hdigits : d.digits = d.digits / 10 * 10 := by omega
    have hvalue : Decimal.value ⟨d.digits / 10, d.exponent + 1⟩ = d.value := by
      have hcast : (d.digits : ℚ) = (d.digits / 10 : Nat) * 10 := by exact_mod_cast hdigits
      rw [Decimal.value, Decimal.value, hcast, zpow_add_one₀ (by norm_num)]
      ring
    exact ⟨by simp only; omega, hvalue ▸ hattracts⟩
  next => exact ⟨hpos, hattracts⟩

end Binary64

end ApiInterfaces
