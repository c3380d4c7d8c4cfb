/-!
Double-precision binary numbers, as their 64-bit words.

A finite word denotes `(-1)^negative * significand * 2^exponent`.  All arithmetic
here is exact arithmetic on natural numbers followed by one rounding, `ofRatio`:
to the nearest double, a tie going to the even significand.
-/

namespace HubKeeper

/-- A double as its interchange word. -/
structure Binary64 where
  bits : UInt64
deriving DecidableEq, Inhabited

namespace Binary64

/-- Value of the lowest bit of the exponent field: 2 to the 52. -/
def exponentUnit : Nat := 0x10000000000000

/-- Value of the sign bit: 2 to the 63. -/
def signUnit : Nat := 0x8000000000000000

/-- Exponent field of a word that is not finite. -/
def topExponent : Nat := 2047

def exponentField (x : Binary64) : Nat :=
  x.bits.toNat / exponentUnit % (topExponent + 1)

def fractionField (x : Binary64) : Nat :=
  x.bits.toNat % exponentUnit

def isNegative (x : Binary64) : Bool :=
  signUnit ≤ x.bits.toNat

def isFinite (x : Binary64) : Bool :=
  x.exponentField != topExponent

def isNaN (x : Binary64) : Bool :=
  x.exponentField == topExponent && x.fractionField != 0

def isZero (x : Binary64) : Bool :=
  x.exponentField == 0 && x.fractionField == 0

def significand (x : Binary64) : Nat :=
  if x.exponentField = 0 then x.fractionField else exponentUnit + x.fractionField

def exponent (x : Binary64) : Int :=
  (max x.exponentField 1 : Nat) - 1075

/-- The word with a sign and 63 further bits. -/
def ofParts (negative : Bool) (magnitude : Nat) : Binary64 :=
  ⟨UInt64.ofNat ((if negative then signUnit else 0) + magnitude)⟩

def zero (negative : Bool) : Binary64 := ofParts negative 0

def infinity (negative : Bool) : Binary64 := ofParts negative (topExponent * exponentUnit)

def nan (negative : Bool) : Binary64 :=
  ofParts negative (topExponent * exponentUnit + exponentUnit / 2)

def neg (x : Binary64) : Binary64 :=
  ofParts (!x.isNegative) (x.bits.toNat % signUnit)

/-- `num / den` scaled by `2 ^ (-e)`, as numerator and denominator. -/
def scaledDown (num den : Nat) (e : Int) : Nat × Nat :=
  (num * Nat.pow 2 (-e).toNat, den * Nat.pow 2 e.toNat)

/-- Nearest natural number to `num / den`; a tie goes to the even one. -/
def roundHalfEven (num den : Nat) : Nat :=
  let q := num / den
  let r := num % den
  if den < 2 * r ∨ (den = 2 * r ∧ q % 2 = 1) then q + 1 else q

/-- Power of two of the last place of the double nearest to `num / den`. -/
def lastPlace (num den : Nat) : Int :=
  let guess : Int := max (-1074) (num.log2 - den.log2 - 53)
  let (n, d) := scaledDown num den guess
  if 2 * exponentUnit ≤ n / d then guess + 1 else guess

/-- The double nearest to `num / den`; infinity from half a place above the
largest double on. -/
def ofRatio (negative : Bool) (num den : Nat) : Binary64 :=
  if num = 0 then zero negative
  else
    let e := lastPlace num den
    let (n, d) := scaledDown num den e
    let magnitude := (e + 1074).toNat * exponentUnit + roundHalfEven n d
    ofParts negative (min magnitude (topExponent * exponentUnit))

def toRatio (x : Binary64) : Nat × Nat :=
  (x.significand * Nat.pow 2 x.exponent.toNat, Nat.pow 2 (-x.exponent).toNat)

def ofNat (n : Nat) : Binary64 :=
  ofRatio false n 1

def ofInt (n : Int) : Binary64 :=
  ofRatio (n < 0) n.natAbs 1

def mulFinite (x y : Binary64) : Binary64 :=
  let (a, b) := x.toRatio
  let (c, d) := y.toRatio
  ofRatio (x.isNegative != y.isNegative) (a * c) (b * d)

/-- Quotient of two finite doubles, the second not zero. -/
def divFinite (x y : Binary64) : Binary64 :=
  let (a, b) := x.toRatio
  let (c, d) := y.toRatio
  ofRatio (x.isNegative != y.isNegative) (a * d) (b * c)

/-- The double nearest to `digits * 10 ^ scale`.  Scales at which the result is
certainly zero or infinite are not computed out. -/
def ofDecimal (negative : Bool) (digits : Nat) (scale : Int) : Binary64 :=
  if digits = 0 then zero negative
  else
    let magnitude := scale + (Nat.toDigits 10 digits).length
    if 310 < magnitude then infinity negative
    else if magnitude < -330 then zero negative
    else ofRatio negative (digits * Nat.pow 10 scale.toNat) (Nat.pow 10 (-scale).toNat)

end Binary64

end HubKeeper
