import HubKeeper.Number.Binary64

/-!
The shortest decimal that reads back as a given double.

The reals that round to a finite double form an interval around it, closed when
its significand is even.  For one digit, two digits and so on up to seventeen,
the two neighbours of the double on that decimal grid are tested; the first grid
with a neighbour inside the interval wins, and of two such neighbours the nearer.
An exact tie is decided by the caller.
-/

namespace HubKeeper

/-- Which of two equally near decimals is taken. -/
inductive DecimalTie
  | toEven
  | up
deriving DecidableEq

/-- The decimal `digits * 10 ^ scale`. -/
structure Decimal where
  digits : Nat
  scale : Int
deriving DecidableEq

namespace Decimal

/-- Removes trailing zeros of the digits; at most `fuel` of them. -/
def normalized : (fuel : Nat) → Decimal → Decimal
  | 0, d => d
  | fuel + 1, d =>
      if d.digits != 0 && d.digits % 10 == 0 then normalized fuel ⟨d.digits / 10, d.scale + 1⟩ else d

end Decimal

namespace Binary64

def decimalLe (a : Nat) (scale : Int) (num den : Nat) : Bool :=
  a * Nat.pow 10 scale.toNat * den ≤ num * Nat.pow 10 (-scale).toNat

/-- The largest `k` with `10 ^ k ≤ num / den`. -/
def decimalExponent (num den : Nat) : Int :=
  let guess : Int := ((num.log2 : Int) - den.log2) * 30103 / 100000
  if decimalLe 1 (guess + 1) num den then guess + 1
  else if decimalLe 1 guess num den then guess
  else guess - 1

/-- Twice the distance of the interval's ends from the double, in quarters of
the last place: below and above. -/
def halfGaps (x : Binary64) : Nat × Nat :=
  (if x.fractionField = 0 ∧ 1 < x.exponentField then 1 else 2, 2)

/-- The double's interval in quarters of the last place. -/
structure Interval where
  low : Nat
  middle : Nat
  high : Nat
  closed : Bool
  /-- A quarter of the last place is `2 ^ unit`. -/
  unit : Int

def interval (x : Binary64) : Interval :=
  let (below, above) := x.halfGaps
  let m := 4 * x.significand
  ⟨m - below, m, m + above, x.significand % 2 == 0, x.exponent - 2⟩

/-- Decimal `a * 10 ^ scale` and the bound `b` quarters over one denominator. -/
def onCommonScale (i : Interval) (a b : Nat) (scale : Int) : Nat × Nat :=
  (a * Nat.pow 10 scale.toNat * Nat.pow 2 (-i.unit).toNat,
    b * Nat.pow 2 i.unit.toNat * Nat.pow 10 (-scale).toNat)

def Interval.holds (i : Interval) (a : Nat) (scale : Int) : Bool :=
  let (dLow, low) := onCommonScale i a i.low scale
  let (dHigh, high) := onCommonScale i a i.high scale
  if i.closed then low ≤ dLow && dHigh ≤ high else low < dLow && dHigh < high

/-- The two neighbours of the double on the grid of multiples of `10 ^ scale`. -/
def neighbour (i : Interval) (scale : Int) : Nat :=
  let (unit, middle) := onCommonScale i 1 i.middle scale
  middle / unit

/-- The better of the two neighbours on one grid, if one lies in the interval. -/
def onGrid (tie : DecimalTie) (i : Interval) (scale : Int) : Option Decimal :=
  let low := neighbour i scale
  let high := low + 1
  match i.holds low scale, i.holds high scale with
  | false, false => none
  | true, false => some ⟨low, scale⟩
  | false, true => some ⟨high, scale⟩
  | true, true =>
      -- Both lie inside: the better one is on the side of the middle.
      let (sum, middle) := onCommonScale i (low + high) (2 * i.middle) scale
      if middle < sum then some ⟨low, scale⟩
      else if sum < middle then some ⟨high, scale⟩
      else
        match tie with
        | .up => some ⟨high, scale⟩
        | .toEven => some ⟨if low % 2 = 0 then low else high, scale⟩

/-- Tries grids from `scale` downward, `steps` of them. -/
def firstGrid (tie : DecimalTie) (i : Interval) : (steps : Nat) → (scale : Int) → Decimal
  | 0, scale => ⟨neighbour i scale, scale⟩
  | steps + 1, scale =>
      match onGrid tie i scale with
      | some found => found
      | none => firstGrid tie i steps (scale - 1)

def shortest (tie : DecimalTie) (x : Binary64) : Decimal :=
  let (num, den) := x.toRatio
  (firstGrid tie x.interval 17 (decimalExponent num den)).normalized 20

end Binary64

end HubKeeper
