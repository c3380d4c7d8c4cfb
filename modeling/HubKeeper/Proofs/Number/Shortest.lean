import HubKeeper.Proofs.Number.Interval

/-!
The shortest decimal of a double lies in the double's interval.

A grid no wider than the interval has a neighbour of the double inside.  Seventeen digits
make such a grid, so the search never ends without one.
-/

namespace HubKeeper

namespace Decimal

theorem value_normalized (fuel : Nat) (d : Decimal) : (d.normalized fuel).value = d.value := by
  induction fuel generalizing d with
  | zero => rfl
  | succ fuel ih =>
      rw [normalized]
      split
      · rename_i reducible
        rw [ih]
        have tens : d.digits = d.digits / 10 * 10 := by
          simp only [Bool.and_eq_true, beq_iff_eq] at reducible
          omega
        simp only [value]
        conv_rhs => rw [tens]
        rw [zpow_add₀ (by norm_num)]
        push_cast
        ring
      · rfl

end Decimal

namespace Binary64

/-! ### The leading power of ten -/

theorem decimalLe_iff {a : Nat} {scale : Int} {num den : Nat} (positive : 0 < den) :
    decimalLe a scale num den = true ↔ (a : ℚ) * 10 ^ scale ≤ num / den := by
  have denominator : (0 : ℚ) < den := by exact_mod_cast positive
  have power : (0 : ℚ) < 10 ^ (-scale).toNat := by positivity
  rw [decimalLe, decide_eq_true_eq, zpow_eq_div 10 (by norm_num), ← @Nat.cast_le ℚ,
    ← mul_div_assoc, div_le_div_iff₀ power denominator]
  simp only [Nat.pow_eq]
  push_cast
  rfl

/-- The power of ten that a difference of binary logarithms suggests. -/
def powerGuess (logs : Int) : Int :=
  logs * 30103 / 100000

/-- One below the guess is never too large. -/
theorem powerGuess_le {logs : Int} (lower : -1075 ≤ logs) (upper : logs ≤ 1024) :
    (10 : ℚ) ^ (powerGuess logs - 1) ≤ 2 ^ (logs - 1) := by
  have checked : ∀ n ∈ List.range 2100,
      10 ^ (powerGuess (n - 1075) - 1).toNat * 2 ^ (-((n : Int) - 1075 - 1)).toNat ≤
        2 ^ ((n : Int) - 1075 - 1).toNat * 10 ^ (-(powerGuess (n - 1075) - 1)).toNat := by
    decide +kernel
  obtain ⟨n, rfl⟩ : ∃ n : Nat, logs = n - 1075 := ⟨(logs + 1075).toNat, by omega⟩
  have found := checked n (List.mem_range.mpr (by omega))
  rw [zpow_eq_div 10 (by norm_num), zpow_eq_div 2 (by norm_num),
    div_le_div_iff₀ (by positivity) (by positivity)]
  exact_mod_cast found

theorem two_pow_logs_le {num den : Nat} (numPositive : 0 < num) (denPositive : 0 < den) :
    (2 : ℚ) ^ ((num.log2 : Int) - den.log2 - 1) ≤ num / den := by
  have numerator : (2 : ℚ) ^ num.log2 ≤ num := by
    exact_mod_cast Nat.log2_self_le numPositive.ne'
  have denominator : (den : ℚ) ≤ 2 ^ (den.log2 + 1) := by
    exact_mod_cast (Nat.lt_log2_self).le
  have split : (num.log2 : Int) - den.log2 - 1 = num.log2 - (den.log2 + 1 : Nat) := by
    push_cast
    ring
  rw [split, zpow_natCast_sub_natCast₀ (by norm_num)]
  have positive : (0 : ℚ) < den := by exact_mod_cast denPositive
  exact div_le_div₀ (by positivity) numerator positive denominator

theorem ten_pow_decimalExponent_le {num den : Nat} (numPositive : 0 < num)
    (denPositive : 0 < den) (lower : -1075 ≤ (num.log2 : Int) - den.log2)
    (upper : (num.log2 : Int) - den.log2 ≤ 1024) :
    (10 : ℚ) ^ decimalExponent num den ≤ num / den := by
  have guessed : decimalExponent num den =
      if decimalLe 1 (powerGuess (num.log2 - den.log2) + 1) num den then
        powerGuess (num.log2 - den.log2) + 1
      else if decimalLe 1 (powerGuess (num.log2 - den.log2)) num den then
        powerGuess (num.log2 - den.log2)
      else powerGuess (num.log2 - den.log2) - 1 := rfl
  rw [guessed]
  split
  · rename_i above
    simpa using (decimalLe_iff denPositive).mp above
  · split
    · rename_i atGuess
      simpa using (decimalLe_iff denPositive).mp atGuess
    · exact (powerGuess_le lower upper).trans (two_pow_logs_le numPositive denPositive)

/-! ### Grids -/

variable {i : Interval} {tie : DecimalTie} {scale : Int}

theorem Interval.contains_of_between {q : ℚ} (above : i.low * 2 ^ i.unit < q)
    (below : q < i.high * 2 ^ i.unit) : i.Contains q := by
  unfold Contains
  split
  · exact ⟨above.le, below.le⟩
  · exact ⟨above, below⟩

theorem onGrid_some {d : Decimal} (found : onGrid tie i scale = some d) :
    i.holds d.digits d.scale = true := by
  simp only [onGrid] at found
  split at found
  · cases found
  · cases found
    assumption
  · cases found
    assumption
  · split at found
    · cases found
      assumption
    · split at found
      · cases found
        assumption
      · cases tie with
        | up =>
            cases found
            assumption
        | toEven =>
            cases found
            dsimp only
            split <;> assumption

/-- The double lies between its two neighbours on a grid. -/
theorem neighbour_bounds (i : Interval) (scale : Int) :
    (neighbour i scale : ℚ) * 10 ^ scale ≤ i.middle * 2 ^ i.unit ∧
      i.middle * 2 ^ i.unit < ((neighbour i scale : ℚ) + 1) * 10 ^ scale := by
  obtain ⟨factor, positive, unit, middle⟩ := onCommonScale_eq i 1 i.middle scale
  have quotient : neighbour i scale =
      (onCommonScale i 1 i.middle scale).2 / (onCommonScale i 1 i.middle scale).1 := rfl
  rw [Nat.cast_one, one_mul] at unit
  have unitPositive : 0 < (onCommonScale i 1 i.middle scale).1 := by
    have cast : (0 : ℚ) < (onCommonScale i 1 i.middle scale).1 := by
      rw [unit]
      positivity
    exact_mod_cast cast
  have below : (neighbour i scale : ℚ) * (onCommonScale i 1 i.middle scale).1 ≤
      (onCommonScale i 1 i.middle scale).2 := by
    rw [quotient]
    exact_mod_cast Nat.div_mul_le_self _ _
  have above : ((onCommonScale i 1 i.middle scale).2 : ℚ) <
      (neighbour i scale + 1) * (onCommonScale i 1 i.middle scale).1 := by
    rw [quotient]
    exact_mod_cast Nat.lt_mul_of_div_lt (Nat.lt_succ_self _) unitPositive
  rw [unit, middle, ← mul_assoc] at below above
  exact ⟨(mul_le_mul_iff_left₀ positive).mp below, (mul_lt_mul_iff_left₀ positive).mp above⟩

/-- On a grid narrower than the interval a neighbour lies inside. -/
theorem onGrid_ne_none (around : i.low < i.middle ∧ i.middle < i.high)
    (narrow : (10 : ℚ) ^ scale < (i.high - i.low) * 2 ^ i.unit) : onGrid tie i scale ≠ none := by
  intro none
  have outside : i.holds (neighbour i scale) scale = false ∧
      i.holds (neighbour i scale + 1) scale = false := by
    simp only [onGrid] at none
    split at none
    · exact ⟨by assumption, by assumption⟩
    · cases none
    · cases none
    · split at none
      · cases none
      · split at none
        · cases none
        · cases tie <;> cases none
  have unit : (0 : ℚ) < 2 ^ i.unit := by positivity
  have lowMiddle : (i.low : ℚ) * 2 ^ i.unit < i.middle * 2 ^ i.unit :=
    mul_lt_mul_of_pos_right (by exact_mod_cast around.1) unit
  have middleHigh : (i.middle : ℚ) * 2 ^ i.unit < i.high * 2 ^ i.unit :=
    mul_lt_mul_of_pos_right (by exact_mod_cast around.2) unit
  obtain ⟨below, above⟩ := neighbour_bounds i scale
  have lowSide : (neighbour i scale : ℚ) * 10 ^ scale ≤ i.low * 2 ^ i.unit := by
    by_contra inside
    have contained := Interval.contains_of_between (not_le.mp inside) (below.trans_lt middleHigh)
    rw [← Interval.holds_iff, outside.1] at contained
    cases contained
  have highSide : (i.high : ℚ) * 2 ^ i.unit ≤ ((neighbour i scale : ℚ) + 1) * 10 ^ scale := by
    by_contra inside
    have contained := Interval.contains_of_between (lowMiddle.trans above) (not_le.mp inside)
    have held := outside.2
    rw [← Nat.cast_succ, ← Interval.holds_iff, held] at contained
    cases contained
  -- With both neighbours outside, the interval would fit between them.
  linarith

theorem firstGrid_holds {steps : Nat} (reached : ∃ k < steps, onGrid tie i (scale - k) ≠ none) :
    i.holds (firstGrid tie i steps scale).digits (firstGrid tie i steps scale).scale = true := by
  induction steps generalizing scale with
  | zero =>
      obtain ⟨k, impossible, _⟩ := reached
      exact absurd impossible (Nat.not_lt_zero k)
  | succ steps ih =>
      rw [firstGrid]
      cases found : onGrid tie i scale with
      | some d => exact onGrid_some found
      | none =>
          refine ih ?_
          obtain ⟨k, below, grid⟩ := reached
          cases k with
          | zero => exact absurd (by simpa using found) grid
          | succ k =>
              refine ⟨k, by omega, ?_⟩
              rwa [show scale - 1 - (k : Int) = scale - (k + 1 : Nat) by push_cast; ring]

/-! ### The double's own interval -/

variable {x : Binary64}

theorem significand_eq (x : Binary64) :
    x.significand = significandOf x.exponentField x.fractionField := rfl

theorem significand_pos (nonzero : x.isZero = false) : 0 < x.significand := by
  have positive : x.magnitude ≠ 0 := by
    intro zero
    rw [(isZero_iff x).mpr zero] at nonzero
    cases nonzero
  unfold significand
  split <;> simp only [exponentField_eq, fractionField_eq, exponentUnit] at * <;> omega

theorem significand_lt (x : Binary64) : x.significand < 2 * exponentUnit := by
  have small : x.fractionField < exponentUnit := Nat.mod_lt _ (by decide)
  unfold significand
  split <;> omega

theorem exponent_bounds (finite : x.isFinite = true) : -1074 ≤ x.exponent ∧ x.exponent ≤ 971 := by
  have below : x.exponentField < topExponent + 1 := Nat.mod_lt _ (by decide)
  have different : x.exponentField ≠ topExponent := by simpa [isFinite] using finite
  simp only [exponent, topExponent] at *
  omega

theorem toRatio_eq (x : Binary64) :
    (x.toRatio.1 : ℚ) / x.toRatio.2 = x.significand * 2 ^ x.exponent := by
  rw [zpow_eq_div 2 (by norm_num), ← mul_div_assoc]
  simp only [toRatio, Nat.pow_eq]
  push_cast
  rfl

theorem middle_eq (x : Binary64) :
    (x.interval.middle : ℚ) * 2 ^ x.interval.unit = x.significand * 2 ^ x.exponent := by
  have middle : x.interval.middle = 4 * x.significand := rfl
  have unit : x.interval.unit = x.exponent - 2 := rfl
  rw [middle, unit, zpow_sub₀ (by norm_num)]
  push_cast
  ring

theorem interval_around (nonzero : x.isZero = false) :
    x.interval.low < x.interval.middle ∧ x.interval.middle < x.interval.high := by
  have positive := significand_pos nonzero
  have low : x.interval.low = 4 * x.significand - gapBelow x.exponentField x.fractionField := rfl
  have middle : x.interval.middle = 4 * x.significand := rfl
  have high : x.interval.high = 4 * x.significand + 2 := rfl
  have gap : 0 < gapBelow x.exponentField x.fractionField := by
    unfold gapBelow
    split <;> decide
  omega

theorem logs_bounds (finite : x.isFinite = true) (nonzero : x.isZero = false) :
    -1075 ≤ (x.toRatio.1.log2 : Int) - x.toRatio.2.log2 ∧
      (x.toRatio.1.log2 : Int) - x.toRatio.2.log2 ≤ 1024 := by
  obtain ⟨lower, upper⟩ := exponent_bounds finite
  have numerator : x.toRatio.1.log2 < 1024 := by
    have positive : x.toRatio.1 ≠ 0 :=
      (Nat.mul_pos (significand_pos nonzero) (Nat.pow_pos (by decide))).ne'
    rw [Nat.log2_lt positive]
    calc x.significand * 2 ^ x.exponent.toNat
        < 2 ^ 53 * 2 ^ x.exponent.toNat :=
          Nat.mul_lt_mul_of_pos_right (significand_lt x) (Nat.pow_pos (by decide))
      _ = 2 ^ (53 + x.exponent.toNat) := (Nat.pow_add ..).symm
      _ ≤ 2 ^ 1024 := Nat.pow_le_pow_right (by decide) (by omega)
  have denominator : x.toRatio.2.log2 = (-x.exponent).toNat := Nat.log2_two_pow
  omega

/-- The middle of an interval is a significand of 53 bits, and its width is no less than three
quarters of the last place. -/
theorem middle_lt_width (nonzero : x.isZero = false) :
    (x.interval.middle : ℚ) < (x.interval.high - x.interval.low) * 10 ^ 16 := by
  have middle : x.interval.middle = 4 * x.significand := rfl
  have positive := significand_pos nonzero
  have gap : x.interval.low + gapBelow x.exponentField x.fractionField = 4 * x.significand := by
    have low : x.interval.low = 4 * x.significand - gapBelow x.exponentField x.fractionField :=
      rfl
    have small : gapBelow x.exponentField x.fractionField ≤ 2 := by
      unfold gapBelow
      split <;> decide
    omega
  have high : x.interval.high = 4 * x.significand + 2 := rfl
  have digits : 4 * x.significand < (2 + gapBelow x.exponentField x.fractionField) * 10 ^ 16 := by
    unfold gapBelow
    split
    · rename_i power
      have least : x.significand = exponentUnit := by
        rw [significand, if_neg (by omega), power.1, Nat.add_zero]
      rw [least]
      decide
    · have bound := significand_lt x
      simp only [exponentUnit] at bound
      omega
  have difference : (x.interval.high : ℚ) - x.interval.low =
      (2 + gapBelow x.exponentField x.fractionField : ℕ) := by
    rw [sub_eq_iff_eq_add]
    exact_mod_cast (show x.interval.high =
      2 + gapBelow x.exponentField x.fractionField + x.interval.low by omega)
  rw [difference, middle]
  exact_mod_cast digits

/-- Seventeen digits are enough. -/
theorem ten_pow_lt_width (finite : x.isFinite = true) (nonzero : x.isZero = false) :
    (10 : ℚ) ^ (decimalExponent x.toRatio.1 x.toRatio.2 - 16) <
      (x.interval.high - x.interval.low) * 2 ^ x.interval.unit := by
  have leading : (10 : ℚ) ^ decimalExponent x.toRatio.1 x.toRatio.2 ≤
      x.interval.middle * 2 ^ x.interval.unit := by
    obtain ⟨lower, upper⟩ := logs_bounds finite nonzero
    rw [middle_eq, ← toRatio_eq]
    exact ten_pow_decimalExponent_le
      (Nat.mul_pos (significand_pos nonzero) (Nat.pow_pos (by decide)))
      (Nat.pow_pos (by decide)) lower upper
  have unit : (0 : ℚ) < 2 ^ x.interval.unit := by positivity
  rw [zpow_sub₀ (by norm_num), div_lt_iff₀ (by positivity)]
  calc (10 : ℚ) ^ decimalExponent x.toRatio.1 x.toRatio.2
      ≤ x.interval.middle * 2 ^ x.interval.unit := leading
    _ < (x.interval.high - x.interval.low) * 10 ^ 16 * 2 ^ x.interval.unit :=
        mul_lt_mul_of_pos_right (middle_lt_width nonzero) unit
    _ = (x.interval.high - x.interval.low) * 2 ^ x.interval.unit * 10 ^ (16 : ℤ) := by
        rw [show ((10 : ℚ) ^ (16 : ℤ)) = 10 ^ 16 from zpow_ofNat 10 16]
        ring

theorem shortest_mem (tie : DecimalTie) (finite : x.isFinite = true) (nonzero : x.isZero = false) :
    x.interval.Contains (x.shortest tie).value := by
  have reached : ∃ k < 17, onGrid tie x.interval
      (decimalExponent x.toRatio.1 x.toRatio.2 - (k : ℕ)) ≠ none :=
    ⟨16, by decide, onGrid_ne_none (interval_around nonzero) (ten_pow_lt_width finite nonzero)⟩
  have inside := Interval.holds_iff.mp (firstGrid_holds reached)
  have same : x.shortest tie = (firstGrid tie x.interval 17
      (decimalExponent x.toRatio.1 x.toRatio.2)).normalized 20 := rfl
  rw [same, Decimal.value_normalized]
  exact inside

theorem shortest_pos (tie : DecimalTie) (finite : x.isFinite = true) (nonzero : x.isZero = false) :
    0 < (x.shortest tie).value := by
  obtain ⟨lower, _⟩ := le_of_contains (shortest_mem tie finite nonzero)
  refine lt_of_lt_of_le (mul_pos ?_ quarter_pos) lower
  have positive := significand_pos nonzero
  have gap : gapBelow x.exponentField x.fractionField ≤ 2 := by
    unfold gapBelow
    split <;> decide
  have ends : 0 < lowerAt x.magnitude := by
    rw [lowerAt, ← exponentField_eq, ← fractionField_eq]
    refine Nat.mul_pos ?_ (Nat.pow_pos (by decide))
    rw [← significand_eq]
    omega
  exact_mod_cast ends

/-- The shortest decimal of a double tells its magnitude. -/
theorem magnitude_eq_of_shortest {y : Binary64} {tie : DecimalTie}
    (xFinite : x.isFinite = true) (xNonzero : x.isZero = false)
    (yFinite : y.isFinite = true) (yNonzero : y.isZero = false)
    (same : (x.shortest tie).value = (y.shortest tie).value) : x.magnitude = y.magnitude :=
  magnitude_eq_of_contains (shortest_mem tie xFinite xNonzero)
    (same ▸ shortest_mem tie yFinite yNonzero)

end Binary64

end HubKeeper
