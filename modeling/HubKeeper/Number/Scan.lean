import HubKeeper.Number.Binary64
import HubKeeper.Text.Ascii

/-!
Reading numbers from text.

`int?` reads a signed decimal integer, `double?` a decimal with optional fraction
and exponent or one of the words for infinity and not-a-number.  Both accept a
leading plus sign and nothing around the number.
-/

namespace HubKeeper.Number

def splitSign : List Char → Bool × List Char
  | '-' :: rest => (true, rest)
  | '+' :: rest => (false, rest)
  | rest => (false, rest)

def minInt64 : Int := -0x8000000000000000

def maxInt64 : Int := 0x7fffffffffffffff

def fitsInt64 (n : Int) : Bool :=
  minInt64 ≤ n && n ≤ maxInt64

/-- A non-empty run of decimal digits, whole text. -/
def digits? (cs : List Char) : Option Nat :=
  if cs != [] && cs.all Char.isDigit then some (Text.decimalValue cs) else none

def int? (cs : List Char) : Option Int :=
  let (negative, body) := splitSign cs
  match digits? body with
  | none => none
  | some n =>
      let value : Int := if negative then -n else n
      if fitsInt64 value then some value else none

/-- A natural number below `bound`, with an optional plus sign. -/
def natBelow? (bound : Nat) (cs : List Char) : Option Nat :=
  let body := match cs with
    | '+' :: rest => rest
    | rest => rest
  (digits? body).filter (· < bound)

def exponentPart? : List Char → Option Int
  | [] => some 0
  | c :: rest =>
      if c = 'e' || c = 'E' then
        let (negative, body) := splitSign rest
        (digits? body).map fun n => if negative then -(n : Int) else n
      else none

/-- Words for the values that no decimal writes, in any case. -/
def specialDouble? (negative : Bool) (cs : List Char) : Option Binary64 :=
  match String.ofList (cs.map Char.toLower) with
  | "inf" | "infinity" => some (.infinity negative)
  | "nan" => some (.nan negative)
  | _ => none

/-- A decimal with at least one digit before or after the point. -/
def double? (cs : List Char) : Option Binary64 :=
  let (negative, body) := splitSign cs
  match specialDouble? negative body with
  | some special => some special
  | none =>
      let whole := body.takeWhile Char.isDigit
      let afterWhole := body.dropWhile Char.isDigit
      let (fraction, tail) := match afterWhole with
        | '.' :: rest => (rest.takeWhile Char.isDigit, rest.dropWhile Char.isDigit)
        | rest => ([], rest)
      if whole = [] && fraction = [] then none
      else
        (exponentPart? tail).map fun power =>
          .ofDecimal negative (Text.decimalValue (whole ++ fraction)) (power - fraction.length)

end HubKeeper.Number
