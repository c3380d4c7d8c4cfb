import HubKeeper.Number.Shortest
import HubKeeper.Text.Ascii

/-!
Written forms of doubles.

A form says between which powers of ten the number is written positionally, how
an exponent is written, whether a whole number gets a fraction, and how numbers
that are not finite read.
-/

namespace HubKeeper

/-- The decisions of a written form. -/
structure NumberForm where
  /-- Powers of ten of the leading digit for which the form is positional. -/
  positional : Option (Int × Int)
  /-- A positive exponent carries a plus sign. -/
  plusExponent : Bool
  /-- A whole number in positional notation ends in `.0`. -/
  pointZero : Bool
  tie : DecimalTie
  nan : Bool → String

namespace NumberForm

/-- Never an exponent, never a needless fraction. -/
def plain : NumberForm where
  positional := none
  plusExponent := false
  pointZero := false
  tie := .up
  nan := fun _ => "NaN"

/-- The form in JSON text: positional from 0.00001 up to sixteen digits, always a
fraction or an exponent. -/
def json : NumberForm where
  positional := some (-5, 15)
  plusExponent := true
  pointZero := true
  tie := .toEven
  nan := fun _ => "null"

def document : NumberForm where
  positional := none
  plusExponent := false
  pointZero := true
  tie := .up
  nan := fun negative => if negative then "-nan" else "nan"

def diagnostic : NumberForm where
  positional := some (-4, 15)
  plusExponent := false
  pointZero := true
  tie := .up
  nan := fun _ => "NaN"

end NumberForm

namespace Decimal

/-- Digits with the point in its place, without an exponent. -/
def positionalChars (pointZero : Bool) (d : Decimal) : List Char :=
  let digits := Text.natChars d.digits
  if 0 ≤ d.scale then
    digits ++ List.replicate d.scale.toNat '0' ++ (if pointZero then ['.', '0'] else [])
  else
    let places := (-d.scale).toNat
    if places < digits.length then
      digits.take (digits.length - places) ++ '.' :: digits.drop (digits.length - places)
    else
      '0' :: '.' :: (List.replicate (places - digits.length) '0' ++ digits)

def leadingPower (d : Decimal) : Int :=
  d.scale + (Text.natChars d.digits).length - 1

def exponentChars (plusExponent : Bool) (d : Decimal) : List Char :=
  let digits := Text.natChars d.digits
  let fraction := if digits.length = 1 then [] else '.' :: digits.drop 1
  let power := d.leadingPower
  let sign := if power < 0 then ['-'] else if plusExponent then ['+'] else []
  digits.take 1 ++ fraction ++ 'e' :: sign ++ Text.natChars power.natAbs

end Decimal

namespace Binary64

def magnitudeChars (form : NumberForm) (x : Binary64) : List Char :=
  let d := x.shortest form.tie
  match form.positional with
  | none => d.positionalChars form.pointZero
  | some (low, high) =>
      if low ≤ d.leadingPower && d.leadingPower ≤ high then d.positionalChars form.pointZero
      else d.exponentChars form.plusExponent

def textChars (form : NumberForm) (x : Binary64) : List Char :=
  if x.isNaN then (form.nan x.isNegative).toList
  else
    let sign := if x.isNegative then ['-'] else []
    if !x.isFinite then sign ++ ['i', 'n', 'f']
    else if x.isZero then sign ++ '0' :: (if form.pointZero then ['.', '0'] else [])
    else sign ++ x.magnitudeChars form

def text (form : NumberForm) (x : Binary64) : String :=
  .ofList (x.textChars form)

end Binary64

end HubKeeper
