import HubKeeper.Proofs.Number.Shortest

/-!
Rounding of quotients.

`ofRatio` finds the last place of the double first and rounds to it once.  What it gives
is the magnitude whose interval holds the quotient, so a decimal from the interval of a
double reads back as that double.
-/

namespace HubKeeper.Binary64

variable {num den : Nat}

/-! ### Magnitudes by place and significand -/

theorem upperAt_eq {f r : Nat} (normal : f = 0 ∨ exponentUnit ≤ r) (below : r < 2 * exponentUnit) :
    upperAt (f * exponentUnit + r) = (4 * r + 2) * 2 ^ f := by
  by_cases small : r < exponentUnit
  · obtain rfl : f = 0 := by omega
    have field : (0 * exponentUnit + r) / exponentUnit = 0 := by
      simp only [exponentUnit] at *
      omega
    have fraction : (0 * exponentUnit + r) % exponentUnit = r := by
      simp only [exponentUnit] at *
      omega
    rw [upperAt, upperEnd, field, fraction, significandOf, if_pos rfl]
    rfl
  · have field : (f * exponentUnit + r) / exponentUnit = f + 1 := by
      simp only [exponentUnit] at *
      omega
    have fraction : (f * exponentUnit + r) % exponentUnit = r - exponentUnit := by
      simp only [exponentUnit] at *
      omega
    have significand : exponentUnit + (r - exponentUnit) = r := by omega
    have exponent : max (f + 1) 1 - 1 = f := by omega
    rw [upperAt, upperEnd, field, fraction, significandOf, if_neg (by omega), place, significand,
      exponent]

theorem lowerAt_eq {f r : Nat} (normal : f = 0 ∨ exponentUnit < r) (positive : 0 < r)
    (below : r ≤ 2 * exponentUnit) :
    lowerAt (f * exponentUnit + r) = (4 * r - 2) * 2 ^ f := by
  have next : f * exponentUnit + r = f * exponentUnit + (r - 1) + 1 := by omega
  rw [next, ← upperAt_eq_lowerAt_succ, upperAt_eq (by omega) (by omega)]
  congr 1
  omega

theorem lowerAt_unit_le {f : Nat} (normal : 0 < f) :
    lowerAt (f * exponentUnit + exponentUnit) ≤ 4 * exponentUnit * 2 ^ f := by
  obtain ⟨g, rfl⟩ : ∃ g, f = g + 1 := ⟨f - 1, by omega⟩
  have lower : (g + 1) * exponentUnit + exponentUnit = g * exponentUnit + 2 * exponentUnit := by
    ring
  rw [lower, lowerAt_eq (.inr (by decide)) (by decide) le_rfl, Nat.pow_succ]
  calc (4 * (2 * exponentUnit) - 2) * 2 ^ g
      ≤ 4 * (2 * exponentUnit) * 2 ^ g := Nat.mul_le_mul_right _ (by omega)
    _ = 4 * exponentUnit * (2 ^ g * 2) := by ring

/-- `t` rounds to `r`: nothing is nearer, and of two equally near ones `r` is even. -/
structure RoundsTo (t : ℚ) (r : Nat) : Prop where
  lower : (r : ℚ) - 1 / 2 ≤ t
  upper : t ≤ r + 1 / 2
  tie : t = r - 1 / 2 ∨ t = r + 1 / 2 → r % 2 = 0

theorem roundsTo_roundHalfEven (positive : 0 < den) :
    RoundsTo (num / den) (roundHalfEven num den) := by
  have denominator : (0 : ℚ) < den := by exact_mod_cast positive
  have quotient : (num : ℚ) / den = (num / den : Nat) + (num % den : Nat) / den := by
    conv_lhs => rw [← Nat.div_add_mod num den]
    push_cast
    field_simp
  have half : ((num % den : Nat) : ℚ) / den = 1 / 2 ↔ 2 * (num % den) = den := by
    rw [div_eq_div_iff denominator.ne' (by norm_num)]
    norm_cast
    omega
  have nonneg : (0 : ℚ) ≤ (num % den : Nat) / den := by positivity
  have proper : ((num % den : Nat) : ℚ) / den < 1 := by
    rw [div_lt_one denominator]
    exact_mod_cast Nat.mod_lt _ positive
  -- The quotient is whole but for the remainder, so rounding goes by this alone.
  rw [quotient]
  simp only [roundHalfEven]
  split
  · rename_i up
    have above : (1 : ℚ) / 2 ≤ (num % den : Nat) / den := by
      rw [div_le_div_iff₀ (by norm_num) denominator]
      norm_cast
      omega
    refine ⟨by push_cast; linarith, by push_cast; linarith, fun tie => ?_⟩
    push_cast at tie
    rcases tie with tie | tie
    · have exact := half.mp (by linarith)
      omega
    · exact absurd tie (by linarith)
  · rename_i down
    have below : ((num % den : Nat) : ℚ) / den ≤ 1 / 2 := by
      rw [div_le_div_iff₀ denominator (by norm_num)]
      norm_cast
      omega
    refine ⟨by linarith, by linarith, fun tie => ?_⟩
    rcases tie with tie | tie
    · exact absurd tie (by linarith)
    · have exact := half.mp (by linarith)
      omega

/-- What rounds to a significand is a significand of the same place or the next one. -/
theorem significand_of_roundsTo {f r : Nat} {t : ℚ} (rounds : RoundsTo t r)
    (normal : f = 0 ∨ (exponentUnit : ℚ) ≤ t) (below : t < 2 * exponentUnit) :
    (f = 0 ∨ exponentUnit ≤ r) ∧ r ≤ 2 * exponentUnit := by
  obtain ⟨lower, upper, _⟩ := rounds
  constructor
  · refine normal.imp_right fun normal => ?_
    have bound : (exponentUnit : ℚ) < r + 1 := by linarith
    exact Nat.lt_succ_iff.mp (by exact_mod_cast bound)
  · have bound : (r : ℚ) < (2 * exponentUnit : Nat) + 1 := by
      push_cast
      linarith
    exact Nat.lt_succ_iff.mp (by exact_mod_cast bound)

theorem lowerAt_le {f r : Nat} {t : ℚ} (rounds : RoundsTo t r)
    (normal : f = 0 ∨ (exponentUnit : ℚ) ≤ t) (nonneg : 0 ≤ t) (below : t < 2 * exponentUnit) :
    (lowerAt (f * exponentUnit + r) : ℚ) ≤ 4 * t * 2 ^ f := by
  obtain ⟨normalR, small⟩ := significand_of_roundsTo rounds normal below
  have power : (0 : ℚ) < 2 ^ f := by positivity
  rcases Nat.eq_zero_or_pos r with rfl | positive
  · obtain rfl : f = 0 := normalR.resolve_right (by decide)
    have zero : lowerAt (0 * exponentUnit + 0) = 0 := by decide
    rw [zero]
    push_cast
    positivity
  · by_cases narrow : 0 < f ∧ r = exponentUnit
    · obtain ⟨later, rfl⟩ := narrow
      have unit : (exponentUnit : ℚ) ≤ t := normal.resolve_left later.ne'
      have bound : (lowerAt (f * exponentUnit + exponentUnit) : ℚ) ≤
          4 * exponentUnit * 2 ^ f := by exact_mod_cast lowerAt_unit_le later
      exact bound.trans (mul_le_mul_of_nonneg_right (by linarith) power.le)
    · rw [lowerAt_eq (by omega) positive small]
      push_cast [show 2 ≤ 4 * r by omega]
      exact mul_le_mul_of_nonneg_right (by linarith [rounds.lower]) power.le

theorem le_upperAt {f r : Nat} {t : ℚ} (rounds : RoundsTo t r)
    (normal : f = 0 ∨ (exponentUnit : ℚ) ≤ t) (below : t < 2 * exponentUnit) :
    4 * t * 2 ^ f ≤ upperAt (f * exponentUnit + r) := by
  obtain ⟨normalR, small⟩ := significand_of_roundsTo rounds normal below
  have power : (0 : ℚ) < 2 ^ f := by positivity
  rcases Nat.lt_or_eq_of_le small with less | rfl
  · rw [upperAt_eq normalR less]
    push_cast
    exact mul_le_mul_of_nonneg_right (by linarith [rounds.upper]) power.le
  · -- The significand is carried into the next place.
    have carried : f * exponentUnit + 2 * exponentUnit =
        (f + 1) * exponentUnit + exponentUnit := by ring
    rw [carried, upperAt_eq (.inr le_rfl) (by decide), pow_succ]
    push_cast
    calc 4 * t * 2 ^ f ≤ (4 * exponentUnit + 2) * 2 * 2 ^ f :=
          mul_le_mul_of_nonneg_right (by linarith) power.le
      _ = (4 * exponentUnit + 2) * (2 ^ f * 2) := by ring

/-- What rounds to a significand at a place lies in the interval of its magnitude. -/
theorem within_of_roundsTo {f r : Nat} {t : ℚ} (rounds : RoundsTo t r)
    (normal : f = 0 ∨ (exponentUnit : ℚ) ≤ t) (nonneg : 0 ≤ t) (below : t < 2 * exponentUnit) :
    Within (f * exponentUnit + r) (4 * t * 2 ^ f * quarter) := by
  obtain ⟨normalR, small⟩ := significand_of_roundsTo rounds normal below
  have parity : (f * exponentUnit + r) % 2 = r % 2 := by
    simp only [exponentUnit]
    omega
  rw [Within, parity]
  split
  · exact ⟨mul_le_mul_of_nonneg_right (lowerAt_le rounds normal nonneg below) quarter_pos.le,
      mul_le_mul_of_nonneg_right (le_upperAt rounds normal below) quarter_pos.le⟩
  · rename_i odd
    have notUnit : r ≠ exponentUnit ∧ r ≠ 2 * exponentUnit := by
      simp only [exponentUnit]
      omega
    have power : (0 : ℚ) < 2 ^ f := by positivity
    have lower := lt_of_le_of_ne rounds.lower fun same => odd (rounds.tie (.inl same.symm))
    have upper := lt_of_le_of_ne rounds.upper fun same => odd (rounds.tie (.inr same))
    rw [lowerAt_eq (by omega) (by omega) small, upperAt_eq normalR (by omega)]
    push_cast [show 2 ≤ 4 * r by omega]
    exact ⟨mul_lt_mul_of_pos_right (mul_lt_mul_of_pos_right (by linarith) power) quarter_pos,
      mul_lt_mul_of_pos_right (mul_lt_mul_of_pos_right (by linarith) power) quarter_pos⟩

/-! ### The last place -/

theorem scaledDown_eq (num den : Nat) (e : Int) :
    ((scaledDown num den e).1 : ℚ) / (scaledDown num den e).2 = num / den / 2 ^ e := by
  rw [zpow_eq_div 2 (by norm_num) e]
  simp only [scaledDown, Nat.pow_eq]
  push_cast
  field_simp

theorem scaledDown_pos (num : Nat) (positive : 0 < den) (e : Int) : 0 < (scaledDown num den e).2 :=
  Nat.mul_pos positive (Nat.pow_pos (by decide))

theorem lt_two_pow_logs (num : Nat) (denPositive : 0 < den) :
    (num : ℚ) / den < 2 ^ ((num.log2 : Int) - den.log2 + 1) := by
  have numerator : (num : ℚ) < 2 ^ (num.log2 + 1) := by
    exact_mod_cast Nat.lt_log2_self
  have denominator : (2 : ℚ) ^ den.log2 ≤ den := by
    exact_mod_cast Nat.log2_self_le denPositive.ne'
  have split : (2 : ℚ) ^ ((num.log2 : Int) - den.log2 + 1) = 2 ^ (num.log2 + 1) / 2 ^ den.log2 := by
    rw [show (num.log2 : Int) - den.log2 + 1 = ((num.log2 + 1 : Nat) : Int) - (den.log2 : Nat) by
      push_cast; ring, zpow_natCast_sub_natCast₀ (by norm_num)]
  rw [split]
  exact div_lt_div₀ numerator denominator (by positivity) (by positivity)

theorem le_scaledDown_iff {bound : Nat} (positive : 0 < den) (e : Int) :
    bound ≤ (scaledDown num den e).1 / (scaledDown num den e).2 ↔
      (bound : ℚ) ≤ num / den / 2 ^ e := by
  have denominator := scaledDown_pos num positive e
  rw [← scaledDown_eq, Nat.le_div_iff_mul_le denominator,
    le_div_iff₀ (by exact_mod_cast denominator)]
  exact_mod_cast Iff.rfl

/-- A quotient has a significand at its last place, which is no smaller than it can be
unless the place is the smallest. -/
theorem lastPlace_spec (numPositive : 0 < num) (denPositive : 0 < den) :
    -1074 ≤ lastPlace num den ∧
      (lastPlace num den = -1074 ∨ (exponentUnit : ℚ) ≤ num / den / 2 ^ lastPlace num den) ∧
      (num : ℚ) / den / 2 ^ lastPlace num den < 2 * exponentUnit := by
  have lower := two_pow_logs_le numPositive denPositive
  have upper := lt_two_pow_logs num denPositive
  have decided : lastPlace num den =
      if (2 * exponentUnit : Nat) ≤
          (num : ℚ) / den / 2 ^ max (-1074) ((num.log2 : Int) - den.log2 - 53)
      then max (-1074) ((num.log2 : Int) - den.log2 - 53) + 1
      else max (-1074) ((num.log2 : Int) - den.log2 - 53) := by
    simp only [← le_scaledDown_iff denPositive]
    rfl
  rw [decided]
  -- The logarithms tell the place but for one; the guess is the lower of the two.
  generalize guessed : max (-1074) ((num.log2 : Int) - den.log2 - 53) = guess
  have power : (0 : ℚ) < 2 ^ guess := by positivity
  have unit : (2 : ℚ) ^ (52 : Int) = exponentUnit := by norm_num [exponentUnit]
  split
  · rename_i large
    push_cast at large
    have bound : (num : ℚ) / den / 2 ^ guess < 2 ^ (54 : Int) := by
      rw [div_lt_iff₀ power, ← zpow_add₀ (by norm_num)]
      exact upper.trans_le (zpow_le_zpow_right₀ (by norm_num) (by omega))
    have four : (2 : ℚ) ^ (54 : Int) = 4 * exponentUnit := by norm_num [exponentUnit]
    have next : (num : ℚ) / den / 2 ^ (guess + 1) = num / den / 2 ^ guess / 2 := by
      rw [zpow_add₀ (by norm_num), zpow_one, div_mul_eq_div_div]
    rw [next]
    exact ⟨by omega, .inr (by linarith), by linarith⟩
  · rename_i small
    push_cast at small
    refine ⟨by omega, ?_, lt_of_not_ge small⟩
    by_cases least : guess = -1074
    · exact .inl least
    · right
      rw [← unit, le_div_iff₀ power, ← zpow_add₀ (by norm_num)]
      exact (zpow_le_zpow_right₀ (by norm_num) (by omega)).trans lower

/-! ### Quotients and decimals -/

theorem toNat_ofParts {negative : Bool} {p : Nat} (small : p < signUnit) :
    (ofParts negative p).bits.toNat = (if negative then signUnit else 0) + p := by
  refine UInt64.toNat_ofNat_of_lt' ?_
  simp only [signUnit, UInt64.size] at *
  split <;> omega

theorem isNegative_ofParts {negative : Bool} {p : Nat} (small : p < signUnit) :
    (ofParts negative p).isNegative = negative := by
  rw [isNegative, toNat_ofParts small]
  cases negative <;> simp [small]

theorem magnitude_ofParts {negative : Bool} {p : Nat} (small : p < signUnit) :
    (ofParts negative p).magnitude = p := by
  rw [magnitude, toNat_ofParts small]
  cases negative <;> simp [Nat.mod_eq_of_lt small]

theorem magnitude_lt {x : Binary64} (finite : x.isFinite = true) :
    x.magnitude < topExponent * exponentUnit := by
  have below := x.bits.toNat_lt
  have field : x.magnitude / exponentUnit ≠ topExponent := by
    simpa [isFinite, exponentField_eq] using finite
  simp only [magnitude, signUnit, topExponent, exponentUnit] at *
  omega

/-- A significand in quarters, moved up from the lowest place, is counted in quarters of the
smallest magnitude. -/
theorem quarters_eq {e : Int} (least : -1074 ≤ e) (q : ℚ) :
    4 * (q / 2 ^ e) * 2 ^ (e + 1074).toNat * quarter = q := by
  have power : (2 : ℚ) ^ (e + 1074).toNat = 2 ^ e * 2 ^ (1074 : Int) := by
    rw [← zpow_natCast, ← zpow_add₀ (by norm_num)]
    congr 1
    omega
  have unit : 4 * (2 : ℚ) ^ (1074 : Int) * quarter = 1 := by
    rw [quarter, show (4 : ℚ) = 2 ^ (2 : Int) by norm_num, ← zpow_add₀ (by norm_num),
      ← zpow_add₀ (by norm_num)]
    norm_num
  have nonzero : (2 : ℚ) ^ e ≠ 0 := by positivity
  calc 4 * (q / 2 ^ e) * 2 ^ (e + 1074).toNat * quarter
      = q * (2 ^ e / 2 ^ e) * (4 * 2 ^ (1074 : Int) * quarter) := by rw [power]; ring
    _ = q := by rw [div_self nonzero, unit, mul_one, mul_one]

/-- A quotient in the interval of a double rounds to that double. -/
theorem ofRatio_eq {x : Binary64} (finite : x.isFinite = true) (numPositive : 0 < num)
    (denPositive : 0 < den) (inside : x.interval.Contains (num / den)) :
    ofRatio x.isNegative num den = x := by
  obtain ⟨least, normal, below⟩ := lastPlace_spec numPositive denPositive
  have rounds : RoundsTo ((num : ℚ) / den / 2 ^ lastPlace num den)
      (roundHalfEven (scaledDown num den (lastPlace num den)).1
        (scaledDown num den (lastPlace num den)).2) := by
    rw [← scaledDown_eq]
    exact roundsTo_roundHalfEven (scaledDown_pos _ denPositive _)
  generalize place : lastPlace num den = e at *
  have rounded := within_of_roundsTo (f := (e + 1074).toNat) rounds
    (normal.imp_left fun least => by omega) (by positivity) below
  rw [quarters_eq least] at rounded
  have same := rounded.unique (interval_contains_iff.mp inside)
  have small := magnitude_lt finite
  have made : ofRatio x.isNegative num den = ofParts x.isNegative x.magnitude := by
    simp only [ofRatio, numPositive.ne', if_false, place, same, Nat.min_eq_left small.le]
  have inRange : x.magnitude < signUnit := small.trans (by decide)
  rw [made]
  exact ext_magnitude (isNegative_ofParts inRange) (magnitude_ofParts inRange)

theorem quotient_eq_value (digits : Nat) (scale : Int) :
    ((digits * Nat.pow 10 scale.toNat : Nat) : ℚ) / (Nat.pow 10 (-scale).toNat : Nat) =
      Decimal.value ⟨digits, scale⟩ := by
  rw [Decimal.value, zpow_eq_div 10 (by norm_num) scale]
  simp only [Nat.pow_eq]
  push_cast
  ring

/-- Bounds on a decimal by the power of ten above its leading digit. -/
theorem value_bounds {digits : Nat} (positive : 0 < digits) (scale : Int) :
    (10 : ℚ) ^ (scale + (Nat.toDigits 10 digits).length - 1) ≤ Decimal.value ⟨digits, scale⟩ ∧
      Decimal.value ⟨digits, scale⟩ < 10 ^ (scale + (Nat.toDigits 10 digits).length) := by
  have some : 0 < (Nat.toDigits 10 digits).length := Nat.length_toDigits_pos
  have upper : digits < 10 ^ (Nat.toDigits 10 digits).length :=
    (Nat.length_toDigits_le_iff (by decide) some).mp le_rfl
  have lower : 10 ^ ((Nat.toDigits 10 digits).length - 1) ≤ digits := by
    rcases Nat.eq_or_lt_of_le (Nat.succ_le_of_lt some) with single | several
    · rw [← single]
      exact positive
    · by_contra less
      have := (Nat.length_toDigits_le_iff (by decide) (by omega)).mpr (Nat.not_le.mp less)
      omega
  have scaled : (0 : ℚ) < 10 ^ scale := by positivity
  generalize (Nat.toDigits 10 digits).length = length at *
  have split : scale + length - 1 = ((length - 1 : Nat) : Int) + scale := by omega
  rw [Decimal.value, split, add_comm scale (length : Int), zpow_add₀ (by norm_num),
    zpow_add₀ (by norm_num), zpow_natCast, zpow_natCast]
  exact ⟨mul_le_mul_of_nonneg_right (by exact_mod_cast lower) scaled.le,
    mul_lt_mul_of_pos_right (by exact_mod_cast upper) scaled⟩

/-- The finite doubles but zero are well within the decimals that are computed out. -/
theorem contains_bounds {x : Binary64} {q : ℚ} (finite : x.isFinite = true)
    (nonzero : x.isZero = false) (inside : x.interval.Contains q) :
    (10 : ℚ) ^ (-330 : Int) < q ∧ q < 10 ^ (309 : Int) := by
  obtain ⟨lower, upper⟩ := le_of_contains inside
  have positive : 0 < x.magnitude := by
    refine Nat.pos_of_ne_zero fun zero => ?_
    rw [(isZero_iff x).mpr zero] at nonzero
    cases nonzero
  have least : upperAt 0 ≤ lowerAt x.magnitude := upperAt_le_lowerAt positive
  have most : upperAt x.magnitude ≤ lowerAt (topExponent * exponentUnit) :=
    upperAt_le_lowerAt (magnitude_lt finite)
  have top : lowerAt (topExponent * exponentUnit) ≤ 4 * exponentUnit * 2 ^ 2046 := by
    rw [show topExponent * exponentUnit = 2046 * exponentUnit + exponentUnit by rfl]
    exact lowerAt_unit_le (by decide)
  -- At the ends of the range stand the powers `2 ^ (-1075)` and `2 ^ 1024`.
  constructor
  · refine lt_of_lt_of_le ?_ lower
    have two : (2 : ℚ) ≤ lowerAt x.magnitude := by
      exact_mod_cast (show upperAt 0 = 2 from rfl) ▸ least
    refine lt_of_lt_of_le ?_ (mul_le_mul_of_nonneg_right two quarter_pos.le)
    have powers : 2 ^ 1075 < 10 ^ 330 := by decide +kernel
    have same : (2 : ℚ) * quarter = 2 ^ (-1075 : Int) := by
      rw [quarter, ← zpow_one_add₀ (by norm_num)]
      rfl
    rw [same, zpow_neg, zpow_neg]
    exact inv_strictAnti₀ (by positivity) (by exact_mod_cast powers)
  · have bound : (upperAt x.magnitude : ℚ) ≤ 4 * exponentUnit * 2 ^ 2046 := by
      exact_mod_cast most.trans top
    refine lt_of_le_of_lt (upper.trans (mul_le_mul_of_nonneg_right bound quarter_pos.le)) ?_
    have powers : 2 ^ 1024 < 10 ^ 309 := by decide +kernel
    have same : (4 * exponentUnit * 2 ^ 2046 : ℚ) * quarter = 2 ^ (1024 : Int) := by
      rw [quarter, show (4 * exponentUnit : ℚ) = 2 ^ (54 : Int) by norm_num [exponentUnit],
        ← zpow_natCast, ← zpow_add₀ (by norm_num), ← zpow_add₀ (by norm_num)]
      rfl
    rw [same]
    exact_mod_cast powers

/-- A decimal in the interval of a double reads as that double. -/
theorem ofDecimal_eq {x : Binary64} {d : Decimal} (finite : x.isFinite = true)
    (nonzero : x.isZero = false) (positive : 0 < d.value) (inside : x.interval.Contains d.value) :
    ofDecimal x.isNegative d.digits d.scale = x := by
  obtain ⟨digits, scale⟩ := d
  have digitsPositive : 0 < digits := by
    rcases Nat.eq_zero_or_pos digits with rfl | positive'
    · simp [Decimal.value] at positive
    · exact positive'
  obtain ⟨lower, upper⟩ := contains_bounds finite nonzero inside
  obtain ⟨leading, above⟩ := value_bounds digitsPositive scale
  have notHuge : ¬ 310 < scale + (Nat.toDigits 10 digits).length := by
    intro huge
    have := (zpow_lt_zpow_iff_right₀ (by norm_num : (1 : ℚ) < 10)).mp (leading.trans_lt upper)
    omega
  have notTiny : ¬ scale + (Nat.toDigits 10 digits).length < -330 := by
    intro tiny
    have := (zpow_lt_zpow_iff_right₀ (by norm_num : (1 : ℚ) < 10)).mp (lower.trans above)
    omega
  simp only [ofDecimal, digitsPositive.ne', if_false, notHuge, notTiny]
  refine ofRatio_eq finite (Nat.mul_pos digitsPositive (Nat.pow_pos (by decide)))
    (Nat.pow_pos (by decide)) ?_
  rw [quotient_eq_value]
  exact inside

end HubKeeper.Binary64
