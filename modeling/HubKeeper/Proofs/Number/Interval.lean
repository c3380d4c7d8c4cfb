import HubKeeper.Number.Shortest
import Mathlib

/-!
The intervals that round to doubles.

The words without sign number the magnitudes upward.  The interval of each magnitude ends
where that of the next one begins, and the common end belongs to the even one only; so no
number lies in the intervals of two magnitudes.
-/

namespace HubKeeper

def Decimal.value (d : Decimal) : ℚ :=
  d.digits * 10 ^ d.scale

theorem zpow_eq_div (base : ℚ) (nonzero : base ≠ 0) (z : ℤ) :
    base ^ z = base ^ z.toNat / base ^ (-z).toNat := by
  conv_lhs => rw [← Int.toNat_sub_toNat_neg z]
  exact zpow_natCast_sub_natCast₀ nonzero _ _

namespace Binary64

/-! ### Words as magnitudes with a sign -/

def magnitude (x : Binary64) : Nat :=
  x.bits.toNat % signUnit

theorem exponentField_eq (x : Binary64) : x.exponentField = x.magnitude / exponentUnit := by
  have below := x.bits.toNat_lt
  simp only [exponentField, magnitude, exponentUnit, topExponent, signUnit]
  omega

theorem fractionField_eq (x : Binary64) : x.fractionField = x.magnitude % exponentUnit := by
  simp only [fractionField, magnitude, exponentUnit, signUnit]
  omega

theorem ext_magnitude {x y : Binary64} (sameSign : x.isNegative = y.isNegative)
    (same : x.magnitude = y.magnitude) : x = y := by
  obtain ⟨xBits⟩ := x
  obtain ⟨yBits⟩ := y
  have xBelow := xBits.toNat_lt
  have yBelow := yBits.toNat_lt
  simp only [isNegative, magnitude, signUnit] at sameSign same
  have sameHalf := decide_eq_decide.mp sameSign
  congr 1
  apply UInt64.toNat_inj.mp
  omega

theorem isZero_iff (x : Binary64) : x.isZero = true ↔ x.magnitude = 0 := by
  simp only [isZero, Bool.and_eq_true, beq_iff_eq, exponentField_eq, fractionField_eq,
    exponentUnit]
  omega

/-! ### Ends of the intervals, in quarters of the smallest magnitude -/

def significandOf (field fraction : Nat) : Nat :=
  if field = 0 then fraction else exponentUnit + fraction

/-- Quarters of the last place from the lower end of an interval up to its middle. -/
def gapBelow (field fraction : Nat) : Nat :=
  if fraction = 0 ∧ 1 < field then 1 else 2

def place (field : Nat) : Nat :=
  2 ^ (max field 1 - 1)

def lowerEnd (field fraction : Nat) : Nat :=
  (4 * significandOf field fraction - gapBelow field fraction) * place field

def upperEnd (field fraction : Nat) : Nat :=
  (4 * significandOf field fraction + 2) * place field

theorem upperEnd_eq_lowerEnd_succ (field fraction : Nat) :
    upperEnd field fraction = lowerEnd field (fraction + 1) := by
  have gap : gapBelow field (fraction + 1) = 2 := if_neg (by simp)
  have next : significandOf field (fraction + 1) = significandOf field fraction + 1 := by
    unfold significandOf
    split <;> omega
  rw [upperEnd, lowerEnd, gap, next]
  congr 1

/-- Above the last fraction the exponent goes up, and the interval narrows below. -/
theorem upperEnd_last (field : Nat) :
    upperEnd field (exponentUnit - 1) = lowerEnd (field + 1) 0 := by
  have next : significandOf (field + 1) 0 = exponentUnit := by simp [significandOf]
  rcases Nat.eq_zero_or_pos field with rfl | normal
  · decide
  · have significand : significandOf field (exponentUnit - 1) = exponentUnit + (exponentUnit - 1) :=
      if_neg (by omega)
    have gap : gapBelow (field + 1) 0 = 1 := if_pos ⟨rfl, by omega⟩
    have doubled : place (field + 1) = 2 * place field := by
      rw [place, place, ← Nat.pow_succ']
      congr 1
      omega
    rw [upperEnd, lowerEnd, significand, gap, next, doubled, ← Nat.mul_assoc]
    congr 1

theorem lowerEnd_lt_upperEnd (field fraction : Nat) :
    lowerEnd field fraction < upperEnd field fraction := by
  have positive : 0 < place field := Nat.pow_pos (by decide)
  refine Nat.mul_lt_mul_of_pos_right ?_ positive
  omega

/-- Ends of the interval of the `p`-th magnitude. -/
def lowerAt (p : Nat) : Nat :=
  lowerEnd (p / exponentUnit) (p % exponentUnit)

def upperAt (p : Nat) : Nat :=
  upperEnd (p / exponentUnit) (p % exponentUnit)

/-- Intervals of successive magnitudes meet. -/
theorem upperAt_eq_lowerAt_succ (p : Nat) : upperAt p = lowerAt (p + 1) := by
  by_cases last : p % exponentUnit + 1 = exponentUnit
  · have field : (p + 1) / exponentUnit = p / exponentUnit + 1 := by
      simp only [exponentUnit] at *
      omega
    have fraction : (p + 1) % exponentUnit = 0 := by
      simp only [exponentUnit] at *
      omega
    have isLast : p % exponentUnit = exponentUnit - 1 := by omega
    rw [upperAt, lowerAt, field, fraction, isLast, upperEnd_last]
  · have field : (p + 1) / exponentUnit = p / exponentUnit := by
      simp only [exponentUnit] at *
      omega
    have fraction : (p + 1) % exponentUnit = p % exponentUnit + 1 := by
      simp only [exponentUnit] at *
      omega
    rw [upperAt, lowerAt, field, fraction, upperEnd_eq_lowerEnd_succ]

theorem upperAt_le_lowerAt {p q : Nat} (below : p < q) : upperAt p ≤ lowerAt q := by
  induction q, below using Nat.le_induction with
  | base => exact (upperAt_eq_lowerAt_succ p).le
  | succ q _ ih =>
      have across : lowerAt q < upperAt q := lowerEnd_lt_upperEnd _ _
      rw [← upperAt_eq_lowerAt_succ]
      omega

theorem eq_succ_of_upperAt_eq {p q : Nat} (below : p < q) (touch : upperAt p = lowerAt q) :
    q = p + 1 := by
  by_contra apart
  have later : p + 1 < q := by omega
  have across : lowerAt (p + 1) < upperAt (p + 1) := lowerEnd_lt_upperEnd _ _
  have between := upperAt_le_lowerAt later
  have meet := upperAt_eq_lowerAt_succ p
  omega

/-! ### Intervals of doubles -/

def Interval.Contains (i : Interval) (q : ℚ) : Prop :=
  if i.closed then i.low * 2 ^ i.unit ≤ q ∧ q ≤ i.high * 2 ^ i.unit
  else i.low * 2 ^ i.unit < q ∧ q < i.high * 2 ^ i.unit

/-- Over the common scale both sides are multiplied by one factor. -/
theorem onCommonScale_eq (i : Interval) (a b : Nat) (scale : Int) :
    ∃ factor : ℚ, 0 < factor ∧
      ((onCommonScale i a b scale).1 : ℚ) = a * 10 ^ scale * factor ∧
      ((onCommonScale i a b scale).2 : ℚ) = b * 2 ^ i.unit * factor := by
  refine ⟨10 ^ (-scale).toNat * 2 ^ (-i.unit).toNat, by positivity, ?_, ?_⟩
  · rw [zpow_eq_div 10 (by norm_num) scale]
    simp only [onCommonScale, Nat.pow_eq]
    push_cast
    field_simp
  · rw [zpow_eq_div 2 (by norm_num) i.unit]
    simp only [onCommonScale, Nat.pow_eq]
    push_cast
    field_simp

theorem Interval.holds_eq (i : Interval) (a : Nat) (scale : Int) :
    i.holds a scale =
      if i.closed then
        decide ((onCommonScale i a i.low scale).2 ≤ (onCommonScale i a i.low scale).1) &&
          decide ((onCommonScale i a i.high scale).1 ≤ (onCommonScale i a i.high scale).2)
      else
        decide ((onCommonScale i a i.low scale).2 < (onCommonScale i a i.low scale).1) &&
          decide ((onCommonScale i a i.high scale).1 < (onCommonScale i a i.high scale).2) := rfl

theorem Interval.holds_iff {i : Interval} {a : Nat} {scale : Int} :
    i.holds a scale = true ↔ i.Contains (a * 10 ^ scale) := by
  obtain ⟨lowFactor, lowPositive, lowLeft, lowRight⟩ := onCommonScale_eq i a i.low scale
  obtain ⟨highFactor, highPositive, highLeft, highRight⟩ := onCommonScale_eq i a i.high scale
  rw [holds_eq, Contains]
  split
  · rw [Bool.and_eq_true, decide_eq_true_eq, decide_eq_true_eq, ← @Nat.cast_le ℚ, lowLeft, lowRight,
      ← @Nat.cast_le ℚ, highLeft, highRight, mul_le_mul_iff_left₀ lowPositive,
      mul_le_mul_iff_left₀ highPositive]
  · rw [Bool.and_eq_true, decide_eq_true_eq, decide_eq_true_eq, ← @Nat.cast_lt ℚ, lowLeft, lowRight,
      ← @Nat.cast_lt ℚ, highLeft, highRight, mul_lt_mul_iff_left₀ lowPositive,
      mul_lt_mul_iff_left₀ highPositive]

variable {x y : Binary64}

theorem significand_mod_two (x : Binary64) : x.significand % 2 = x.magnitude % 2 := by
  unfold significand
  split <;> simp only [exponentField_eq, fractionField_eq, exponentUnit] at * <;> omega

def quarter : ℚ :=
  2 ^ (-1076 : ℤ)

theorem quarter_pos : 0 < quarter :=
  zpow_pos (by norm_num) _

theorem interval_ends (x : Binary64) :
    (x.interval.low : ℚ) * 2 ^ x.interval.unit = lowerAt x.magnitude * quarter ∧
      (x.interval.high : ℚ) * 2 ^ x.interval.unit = upperAt x.magnitude * quarter := by
  have low : x.interval.low = 4 * significandOf x.exponentField x.fractionField -
      gapBelow x.exponentField x.fractionField := rfl
  have high : x.interval.high = 4 * significandOf x.exponentField x.fractionField + 2 := rfl
  have unit : (2 : ℚ) ^ x.interval.unit = place x.exponentField * quarter := by
    have split : x.interval.unit = ((max x.exponentField 1 - 1 : ℕ) : ℤ) + -1076 := by
      simp only [interval, exponent]
      omega
    rw [split, zpow_add₀ (by norm_num), zpow_natCast, place, Nat.cast_pow, Nat.cast_ofNat, quarter]
  rw [low, high, unit, lowerAt, upperAt, ← exponentField_eq, ← fractionField_eq, lowerEnd, upperEnd]
  push_cast
  constructor <;> ring

/-- The number lies in the interval of the `p`-th magnitude. -/
def Within (p : Nat) (q : ℚ) : Prop :=
  if p % 2 = 0 then lowerAt p * quarter ≤ q ∧ q ≤ upperAt p * quarter
  else lowerAt p * quarter < q ∧ q < upperAt p * quarter

theorem interval_contains_iff {q : ℚ} : x.interval.Contains q ↔ Within x.magnitude q := by
  obtain ⟨low, high⟩ := interval_ends x
  have closed : x.interval.closed = (x.significand % 2 == 0) := rfl
  rw [Interval.Contains, Within, low, high, closed, significand_mod_two]
  simp only [beq_iff_eq]

theorem Within.le {p : Nat} {q : ℚ} (inside : Within p q) :
    lowerAt p * quarter ≤ q ∧ q ≤ upperAt p * quarter := by
  rw [Within] at inside
  split at inside
  · exact inside
  · exact ⟨inside.1.le, inside.2.le⟩

theorem le_of_contains {q : ℚ} (inside : x.interval.Contains q) :
    lowerAt x.magnitude * quarter ≤ q ∧ q ≤ upperAt x.magnitude * quarter :=
  (interval_contains_iff.mp inside).le

/-- An end belongs to the interval of an even magnitude only. -/
theorem Within.even_of_end {p : Nat} {q : ℚ} (inside : Within p q)
    (atEnd : q = lowerAt p * quarter ∨ q = upperAt p * quarter) : p % 2 = 0 := by
  rw [Within] at inside
  split at inside
  · assumption
  · rcases atEnd with rfl | rfl
    · exact absurd inside.1 (lt_irrefl _)
    · exact absurd inside.2 (lt_irrefl _)

theorem Within.not_lt {p p' : Nat} {q : ℚ} (inside : Within p q) (inside' : Within p' q) :
    ¬p < p' := by
  intro below
  have order : (upperAt p : ℚ) * quarter ≤ lowerAt p' * quarter :=
    mul_le_mul_of_nonneg_right (by exact_mod_cast upperAt_le_lowerAt below) quarter_pos.le
  have upper := inside.le.2
  have lower := inside'.le.1
  have touch : upperAt p = lowerAt p' := by
    exact_mod_cast mul_right_cancel₀ quarter_pos.ne' (le_antisymm order (lower.trans upper))
  have next := eq_succ_of_upperAt_eq below touch
  have even := inside.even_of_end (.inr (le_antisymm upper (order.trans lower)))
  have even' := inside'.even_of_end (.inl (le_antisymm (upper.trans order) lower))
  omega

/-- No number lies in the intervals of two magnitudes. -/
theorem Within.unique {p p' : Nat} {q : ℚ} (inside : Within p q) (inside' : Within p' q) :
    p = p' :=
  Nat.le_antisymm (Nat.not_lt.mp (inside'.not_lt inside)) (Nat.not_lt.mp (inside.not_lt inside'))

theorem magnitude_eq_of_contains {q : ℚ} (inX : x.interval.Contains q)
    (inY : y.interval.Contains q) : x.magnitude = y.magnitude :=
  (interval_contains_iff.mp inX).unique (interval_contains_iff.mp inY)

end Binary64

end HubKeeper
